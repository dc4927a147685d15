import HarmonyScreen.Host.DataPlaneGate

namespace HarmonyScreen.Proofs.GateOrder
open Lib Host DataPlaneGate

variable {ι : Type} {i j : ι} {s t u : DataPlaneGate ι} {token : UInt64}

/-- A thread other than `i` is in an `Open` or a `Revoke`. -/
def Others (i : ι) (s : DataPlaneGate ι) : Prop := ∃ j, j ≠ i ∧ s.changes j ≠ none

/-- Every action that was run had the token of the `Open` in force. -/
def ActsInForce (log : List GateEvent) : Prop :=
  ∀ before token after, log = before ++ .acted token :: after → inForce before = some token

structure Invariant (s : DataPlaneGate ι) : Prop where
  allowed : s.allowed = true → inForce s.log = some s.epoch
  token : ∀ token, inForce s.log = some token → token = s.epoch
  acted : ActsInForce s.log
  isOpen : (inForce s.log).isSome → s.allowed = true ∨ ∃ i, s.changes i ≠ none

/-- What the other threads leave alone while `i` holds the mutex; they still refuse sends at
any time, each at the start of a change. -/
structure Held (i : ι) (s t : DataPlaneGate ι) : Prop where
  sendMutex : t.sendMutex = some i
  epoch : t.epoch = s.epoch
  log : t.log = s.log
  refused : s.allowed = false → t.allowed = false
  allowed : s.allowed = true → t.allowed = true ∨ Others i t
  others : Others i s → Others i t

structure Relies (i : ι) (s t : DataPlaneGate ι) : Prop where
  changes : t.changes i = s.changes i
  absent : s.sendMutex ≠ some i → t.sendMutex ≠ some i
  held : s.sendMutex = some i → Held i s t

theorem Relies.refl (i : ι) (s : DataPlaneGate ι) : Relies i s s :=
  ⟨rfl, id, fun h => ⟨h, rfl, rfl, id, .inl, id⟩⟩

theorem Relies.trans (h : Relies i s t) (h' : Relies i t u) : Relies i s u := by
  refine ⟨h'.changes.trans h.changes, fun habsent => h'.absent (h.absent habsent), fun hmutex => ?_⟩
  have hfirst := h.held hmutex
  have hthen := h'.held hfirst.sendMutex
  refine ⟨hthen.sendMutex, hthen.epoch.trans hfirst.epoch, hthen.log.trans hfirst.log,
    fun hrefused => hthen.refused (hfirst.refused hrefused), fun hallowed => ?_,
    fun hothers => hthen.others (hfirst.others hothers)⟩
  rcases hfirst.allowed hallowed with hallowed | hothers
  · exact hthen.allowed hallowed
  · exact .inr (hthen.others hothers)

/-- No `Open` comes to its store of `true` between the store and the increment of a `Revoke`: when
`i` takes the increment of a `Revoke`, sends are still refused. -/
def Orderly (i : ι) (s : DataPlaneGate ι) (_ : Unit) : Prop :=
  s.changes i = some .revoking → s.sendMutex = some i → s.allowed = false

def discipline (ι : Type) : Discipline ι (DataPlaneGate ι) Unit where
  invariant := Invariant
  offers := Orderly
  rely := Relies
  guarantee i s t := ∀ j, j ≠ i → Relies j s t
  refl := Relies.refl
  trans _ := Relies.trans
  compatible hne _ h := h _ hne.symm

/-- Thread `i` is at a point of a change, and holds the mutex or not. -/
def At (i : ι) (change : Option Change) (holds : Bool) (s : DataPlaneGate ι) : Prop :=
  s.changes i = change ∧ (s.sendMutex = some i ↔ holds = true)

theorem at_stable (change : Option Change) (holds : Bool) :
    (discipline ι).Stable i (At i change holds) := by
  rintro s t ⟨hchange, hholds⟩ hrely _
  refine ⟨hrely.changes.trans hchange, ?_⟩
  by_cases hmutex : s.sendMutex = some i
  · exact ⟨fun _ => hholds.mp hmutex, fun _ => (hrely.held hmutex).sendMutex⟩
  · exact ⟨fun h => absurd h (hrely.absent hmutex), fun h => absurd (hholds.mpr h) hmutex⟩

/-- A thread with the mutex knows something of the history. -/
def Knows (i : ι) (change : Option Change) (fact : List GateEvent → UInt64 → Prop)
    (s : DataPlaneGate ι) : Prop :=
  At i change true s ∧ fact s.log s.epoch

theorem knows_stable (change : Option Change) (fact : List GateEvent → UInt64 → Prop) :
    (discipline ι).Stable i (Knows i change fact) := by
  rintro s t ⟨hat, hfact⟩ hrely hinv
  have hheld := hrely.held (hat.2.mpr rfl)
  refine ⟨at_stable change true s t hat hrely hinv, ?_⟩
  rwa [hheld.log, hheld.epoch]

@[simp] theorem inForce_opened (log : List GateEvent) (token : UInt64) :
    inForce (log ++ [.opened token]) = some token := by
  simp [inForce]

@[simp] theorem inForce_revoked (log : List GateEvent) : inForce (log ++ [.revoked]) = none := by
  simp [inForce]

@[simp] theorem inForce_acted (log : List GateEvent) (token : UInt64) :
    inForce (log ++ [.acted token]) = inForce log := by
  simp [inForce]

theorem ActsInForce.append {log : List GateEvent} {event : GateEvent} (h : ActsInForce log)
    (hevent : ∀ token, event = .acted token → inForce log = some token) :
    ActsInForce (log ++ [event]) := by
  intro before token after hlog
  rcases List.append_eq_append_iff.mp hlog with ⟨behind, rfl, hbehind⟩ | ⟨behind, rfl, hbehind⟩
  · rcases behind with _ | ⟨first, behind⟩
    · obtain ⟨rfl, -⟩ : event = .acted token ∧ after = [] := by simpa using hbehind
      simpa using hevent token rfl
    · simp at hbehind
  · cases behind with
    | nil =>
      obtain ⟨rfl, -⟩ : .acted token = event ∧ after = [] := by simpa using hbehind
      simpa using hevent token rfl
    | cons first behind =>
      obtain ⟨rfl, -⟩ : .acted token = first ∧ after = behind ++ [event] := by simpa using hbehind
      exact h before token behind rfl

/-- What a step of the thread with the mutex leaves to the others. -/
theorem relies_of_holder (hmutex : s.sendMutex = some i) (hchanges : ∀ j, j ≠ i → t.changes j = s.changes j)
    (hafter : t.sendMutex = some i ∨ t.sendMutex = none) : ∀ j, j ≠ i → Relies j s t := by
  intro j hj
  refine ⟨hchanges j hj, fun _ hother => ?_, fun hother => ?_⟩
  · rcases hafter with hafter | hafter
    · rw [hafter] at hother
      exact hj (Option.some.inj hother).symm
    · rw [hafter] at hother
      cases hother
  · rw [hmutex] at hother
    exact absurd (Option.some.inj hother).symm hj

theorem modify_outline {P Q : DataPlaneGate ι → Prop} {f : DataPlaneGate ι → DataPlaneGate ι}
    (stable : (discipline ι).Stable i P) (after : (discipline ι).Stable i Q)
    (h : ∀ s, Invariant s → P s →
      Invariant (f s) ∧ (∀ j, j ≠ i → Relies j s (f s)) ∧ Q (f s)) :
    (discipline ι).Outline i P (modify f) (fun _ => Q) :=
  .critical stable (fun _ => after) fun _ s hs hP _ => h s hs hP

theorem load_outline {α : Type} {P : DataPlaneGate ι → Prop} {Q : α → DataPlaneGate ι → Prop}
    {read : DataPlaneGate ι → α} (stable : (discipline ι).Stable i P)
    (after : ∀ a, (discipline ι).Stable i (Q a))
    (h : ∀ s, Invariant s → P s → Q (read s) s) : (discipline ι).Outline i P (load read) Q :=
  .critical stable after fun _ s hs hP _ => ⟨hs, fun j _ => Relies.refl j s, h s hs hP⟩

theorem lockSendMutex_outline (change : Option Change) :
    (discipline ι).Outline i (At i change false) (lockSendMutex i) (fun _ => At i change true) := by
  refine .atomic (at_stable change false) fun _ s hs hat _ hfree => ?_
  have hnone : s.sendMutex = none := by simpa using hfree
  refine ⟨⟨hs.allowed, hs.token, hs.acted, hs.isOpen⟩, fun j hj => ⟨rfl, fun _ hother => ?_,
    fun hmutex => ?_⟩, fun t hrely hinv => ?_⟩
  · exact hj (Option.some.inj hother).symm
  · rw [hnone] at hmutex
    cases hmutex
  · have hat' : At i change true { s with sendMutex := some i } := ⟨hat.1, by simp⟩
    exact at_stable change true _ t hat' hrely hinv

/-- The mutex is released at the end of a call that is no change. -/
theorem unlockSendMutex_outline :
    (discipline ι).Outline i (At i none true) unlockSendMutex (fun _ => At i none false) := by
  refine modify_outline (at_stable none true) (at_stable none false) fun s hs hat => ?_
  exact ⟨⟨hs.allowed, hs.token, hs.acted, hs.isOpen⟩,
    relies_of_holder (hat.2.mpr rfl) (fun _ _ => rfl) (.inr rfl), hat.1, by simp⟩

/-- What a change leaves: an `Open` is in force only if sends are allowed or another change is
on its way. -/
def Finishable (i : ι) (s : DataPlaneGate ι) : Prop :=
  At i (some .changed) true s ∧ ((inForce s.log).isSome → s.allowed = true ∨ Others i s)

theorem finishable_stable : (discipline ι).Stable i (Finishable i) := by
  rintro s t ⟨hat, hopen⟩ hrely hinv
  have hheld := hrely.held (hat.2.mpr rfl)
  refine ⟨at_stable _ true s t hat hrely hinv, fun hsome => ?_⟩
  rw [hheld.log] at hsome
  rcases hopen hsome with hallowed | hothers
  · exact hheld.allowed hallowed
  · exact .inr (hheld.others hothers)

theorem allow_outline :
    (discipline ι).Outline i (Knows i (some .changed) fun log epoch => inForce log = some epoch)
      (modify fun s => { s with allowed := true }) (fun _ => Finishable i) := by
  refine modify_outline (knows_stable _ _) finishable_stable fun s hs hchanged => ?_
  obtain ⟨hat, hforce⟩ := hchanged
  exact ⟨⟨fun _ => hforce, hs.token, hs.acted, fun _ => .inl rfl⟩,
    relies_of_holder (hat.2.mpr rfl) (fun _ _ => rfl) (.inl (hat.2.mpr rfl)), hat, fun _ => .inl rfl⟩

/-- A load that nothing is concluded from. -/
theorem look_outline {α : Type} {P : DataPlaneGate ι → Prop} (stable : (discipline ι).Stable i P)
    (read : DataPlaneGate ι → α) : (discipline ι).Outline i P (load read) (fun _ => P) :=
  load_outline stable (fun _ => stable) fun _ _ h => h

/-- The action is run under the lock, with the token of the `Open` in force. -/
theorem act_outline (token : UInt64) :
    (discipline ι).Outline i (Knows i none fun log _ => inForce log = some token)
      (modify fun s => { s with log := s.log ++ [.acted token] }) (fun _ => At i none true) := by
  refine modify_outline (knows_stable _ _) (at_stable none true) fun s hs hknows => ?_
  obtain ⟨hat, hforce⟩ := hknows
  refine ⟨⟨fun h => ?_, fun other h => ?_, ?_, fun h => ?_⟩,
    relies_of_holder (hat.2.mpr rfl) (fun _ _ => rfl) (.inl (hat.2.mpr rfl)), hat⟩
  · rw [inForce_acted]
    exact hs.allowed h
  · rw [inForce_acted] at h
    exact hs.token other h
  · refine hs.acted.append fun other h => ?_
    cases h
    exact hforce
  · rw [inForce_acted] at h
    exact hs.isOpen h

theorem capture_outline :
    (discipline ι).Outline i (At i none false) capture (fun _ => At i none false) := by
  have stable := at_stable (i := i) none false
  have hret (result : Option UInt64) : (discipline ι).Outline i (At i none false)
      (Program.ret result : GateProgram ι (Option UInt64)) (fun _ => At i none false) :=
    .ret result stable fun _ _ h => h
  refine (look_outline stable allowed).bind fun first => ?_
  cases first with
  | false => exact hret none
  | true =>
    refine (look_outline stable epoch).bind fun token => ?_
    refine (look_outline stable allowed).bind fun second => ?_
    cases second with
    | false => exact hret none
    | true =>
      refine (look_outline stable epoch).bind fun again => ?_
      split
      · exact hret _
      · exact hret _

theorem canSend_outline (token : UInt64) :
    (discipline ι).Outline i (At i none false) (canSend token) (fun _ => At i none false) := by
  have stable := at_stable (i := i) none false
  refine (look_outline stable allowed).bind fun first => ?_
  cases first with
  | false => exact .ret _ stable fun _ _ h => h
  | true =>
    refine (look_outline stable epoch).bind fun current => ?_
    exact .ret _ stable fun _ _ h => h

theorem runIfAllowed_outline (token : UInt64) :
    (discipline ι).Outline i (At i none false) (runIfAllowed i token)
      (fun _ => At i none false) := by
  have hleave (sent : Bool) : (discipline ι).Outline i (At i none true)
      (unlockSendMutex >>= fun _ => (Program.ret sent : GateProgram ι Bool))
      (fun _ => At i none false) :=
    unlockSendMutex_outline.bind fun _ => .ret sent (at_stable none false) fun _ _ h => h
  have hallowed : (discipline ι).Outline i (At i none true) (load allowed) (fun allowed s =>
      Knows i none (fun log epoch => allowed = true → inForce log = some epoch) s) :=
    load_outline (at_stable none true) (fun _ => knows_stable _ _) fun s hs hat => ⟨hat, hs.allowed⟩
  refine (lockSendMutex_outline none).bind fun _ => ?_
  refine hallowed.bind fun first => ?_
  cases first with
  | false => exact (hleave false).weaken (fun _ _ h => h.1) fun _ _ _ h => h
  | true =>
    have hepoch : (discipline ι).Outline i
        (Knows i none fun log epoch => true = true → inForce log = some epoch) (load epoch)
        (fun current => Knows i none fun log _ => inForce log = some current) :=
      load_outline (knows_stable _ _) (fun _ => knows_stable _ _)
        fun s _ hknows => ⟨hknows.1, hknows.2 rfl⟩
    refine hepoch.bind fun current => ?_
    split
    · exact (hleave false).weaken (fun _ _ h => h.1) fun _ _ _ h => h
    · rename_i heq
      obtain rfl := not_not.mp heq
      exact (act_outline current).bind fun _ => hleave true

section Changes
variable [DecidableEq ι]

theorem storeRefused_outline (change : Change) :
    (discipline ι).Outline i (At i none false) (storeRefused i change)
      (fun _ => At i (some change) false) := by
  refine modify_outline (at_stable none false) (at_stable (some change) false) fun s hs hat => ?_
  have hself : Function.update s.changes i (some change) i = some change := Function.update_self ..
  refine ⟨⟨nofun, hs.token, hs.acted, fun _ => .inr ⟨i, by simp⟩⟩, fun j hj => ?_,
    hself, hat.2⟩
  have hothers : Others j { s with
      allowed := false, changes := Function.update s.changes i (some change) } :=
    ⟨i, hj.symm, by simp⟩
  exact ⟨Function.update_of_ne hj .., id,
    fun hmutex => ⟨hmutex, rfl, rfl, fun _ => rfl, fun _ => .inr hothers, fun _ => hothers⟩⟩

/-- The state behind an increment of the epoch. -/
def incremented (i : ι) (event : GateEvent) (s : DataPlaneGate ι) : DataPlaneGate ι :=
  { s with
    epoch := s.epoch + 1
    changes := Function.update s.changes i (some .changed)
    log := s.log ++ [event] }

theorem increment_invariant (event : GateEvent) (hs : Invariant s)
    (hacted : ∀ token, event ≠ .acted token)
    (hallowed : s.allowed = true → inForce (s.log ++ [event]) = some (s.epoch + 1))
    (htoken : ∀ token, inForce (s.log ++ [event]) = some token → token = s.epoch + 1) :
    Invariant (incremented i event s) :=
  ⟨hallowed, htoken, hs.acted.append fun token h => absurd h (hacted token),
    fun _ => .inr ⟨i, by simp [incremented]⟩⟩

theorem increment_relies (event : GateEvent) (hmutex : s.sendMutex = some i) :
    ∀ j, j ≠ i → Relies j s (incremented i event s) :=
  relies_of_holder hmutex (fun _ hj => Function.update_of_ne hj ..) (.inl hmutex)

theorem openIncrement_outline :
    (discipline ι).Outline i (At i (some .opening) true) (incrementEpoch i .opened)
      (fun _ => Knows i (some .changed) fun log epoch => inForce log = some epoch) := by
  refine .critical (at_stable _ true) (fun _ => knows_stable _ _) fun _ s hs hat _ => ?_
  have hmutex := hat.2.mpr rfl
  refine ⟨increment_invariant (.opened (s.epoch + 1)) hs nofun (fun _ => inForce_opened _ _) ?_,
    increment_relies _ hmutex, ⟨by simp, by simpa using hmutex⟩, inForce_opened _ _⟩
  intro token h
  rw [inForce_opened] at h
  exact (Option.some.inj h).symm

/-- Here the order of the run counts: a `Revoke` takes its increment while sends are refused. -/
theorem revokeIncrement_outline :
    (discipline ι).Outline i (At i (some .revoking) true) (incrementEpoch i fun _ => .revoked)
      (fun _ => Knows i (some .changed) fun log _ => inForce log = none) := by
  refine .critical (at_stable _ true) (fun _ => knows_stable _ _) fun _ s hs hat horderly => ?_
  have hmutex := hat.2.mpr rfl
  have hrefused : s.allowed = false := horderly hat.1 hmutex
  refine ⟨increment_invariant .revoked hs nofun (fun h => ?_) ?_,
    increment_relies _ hmutex, ⟨by simp, by simpa using hmutex⟩, inForce_revoked _⟩
  · rw [hrefused] at h
    cases h
  · intro token h
    rw [inForce_revoked] at h
    cases h

theorem finishChange_outline :
    (discipline ι).Outline i (Finishable i) (finishChange i) (fun _ => At i none false) := by
  refine modify_outline finishable_stable (at_stable none false) fun s hs hfinishable => ?_
  obtain ⟨hat, hopen⟩ := hfinishable
  refine ⟨⟨hs.allowed, hs.token, hs.acted, fun hsome => ?_⟩,
    relies_of_holder (hat.2.mpr rfl) (fun _ hj => Function.update_of_ne hj ..) (.inr rfl),
    by simp, by simp⟩
  rcases hopen hsome with hallowed | ⟨j, hj, hchange⟩
  · exact .inl hallowed
  · exact .inr ⟨j, by simpa [Function.update_of_ne hj] using hchange⟩

theorem openGate_outline :
    (discipline ι).Outline i (At i none false) (openGate i) (fun _ => At i none false) := by
  refine (storeRefused_outline .opening).bind fun _ => ?_
  refine (lockSendMutex_outline (some .opening)).bind fun _ => ?_
  refine openIncrement_outline.bind fun _ => ?_
  refine allow_outline.bind fun _ => ?_
  refine finishChange_outline.bind fun _ => ?_
  exact .ret _ (at_stable none false) fun _ _ h => h

theorem revoke_outline :
    (discipline ι).Outline i (At i none false) (revoke i) (fun _ => At i none false) := by
  refine (storeRefused_outline .revoking).bind fun _ => ?_
  refine (lockSendMutex_outline (some .revoking)).bind fun _ => ?_
  refine revokeIncrement_outline.bind fun _ => ?_
  refine finishChange_outline.weaken (fun s _ h => ⟨h.1, fun hsome => ?_⟩) fun _ _ _ h => h
  rw [h.2] at hsome
  cases hsome

theorem spawn_outline (job : Job) :
    (discipline ι).Outline i (At i none false) (spawn i job) (fun _ => At i none false) := by
  have hret : ∀ {α : Type} {p : GateProgram ι α},
      (discipline ι).Outline i (At i none false) p (fun _ => At i none false) →
      (discipline ι).Outline i (At i none false) (p >>= fun _ => Program.ret ())
        (fun _ => At i none false) :=
    fun hp => hp.bind fun _ => .ret () (at_stable none false) fun _ _ h => h
  cases job with
  | openGate => exact hret openGate_outline
  | revoke => exact revoke_outline
  | capture => exact hret capture_outline
  | canSend token => exact hret (canSend_outline token)
  | runIfAllowed token => exact hret (runIfAllowed_outline token)

end Changes

/-- Actions run only for the `Open` in force, and without a change on its way the gate is
allowed exactly when the last increment was an `Open`'s. -/
structure FollowsLast (s : DataPlaneGate ι) : Prop where
  acted : ActsInForce s.log
  allowed : (∀ i, s.changes i = none) → (s.allowed = true ↔ (inForce s.log).isSome)

theorem Invariant.followsLast (h : Invariant s) : FollowsLast s := by
  refine ⟨h.acted, fun hquiet => ⟨fun hallowed => ?_, fun hforce => ?_⟩⟩
  · rw [h.allowed hallowed]
    rfl
  · rcases h.isOpen hforce with hallowed | ⟨i, hchange⟩
    · exact hallowed
    · exact absurd (hquiet i) hchange

/-- In every run in which no `Open` lets sends through within a `Revoke`, the gate follows the change
that incremented last. -/
theorem gate_follows_last [DecidableEq ι] (c : Config ι (DataPlaneGate ι) Unit)
    (hc : Config.ReachesOffered spawn (fun _ _ _ => True) Orderly (Config.idle {}) c) :
    FollowsLast c.state := by
  have hstart : Invariant ({} : DataPlaneGate ι) := by
    refine ⟨nofun, nofun, fun before token after h => ?_, nofun⟩
    simp at h
  have hrest (i : ι) : At i none false ({} : DataPlaneGate ι) := ⟨rfl, by simp⟩
  have hkept : Config.Kept (discipline ι) (fun i => At i none false) c :=
    Config.ReachesOffered.kept hc hstart (fun i => at_stable none false) hrest
      fun _ job s hs hat _ => spawn_outline job s hs hat
  exact Invariant.followsLast hkept.1

instance (i : Bool) (s : DataPlaneGate Bool) (e : Unit) : Decidable (Orderly i s e) :=
  inferInstanceAs (Decidable (_ → _ → _))

/-- A thread opens the gate, the other one sends, and the first revokes. -/
def openSendRevoke : List (Move Bool Unit Job) :=
  .start false .openGate :: (List.replicate 5 (.step false ()) ++
    .start true (.runIfAllowed 1) :: (List.replicate 5 (.step true ()) ++
    .start false .revoke :: List.replicate 4 (.step false ())))

theorem gate_follows_last_sent : ∃ c : Config Bool (DataPlaneGate Bool) Unit,
    c.state.log = [.opened 1, .acted 1, .revoked] ∧ FollowsLast c.state := by
  have hrun : (Config.follow spawn (fun _ _ _ => True) Orderly openSendRevoke
      (Config.idle {})).any (fun c => c.state.log = [.opened 1, .acted 1, .revoked]) = true := by
    decide
  obtain ⟨c, hc, hlog⟩ := (Option.any_eq_true _ _).mp hrun
  exact ⟨c, of_decide_eq_true hlog, gate_follows_last c (Config.ReachesOffered.follow .refl _ hc)⟩

/-- An `Open` comes between the store and the increment of a `Revoke`. -/
def openWithinRevoke : List (Move Bool Unit Job) :=
  .start false .revoke :: .step false () ::
    .start true .openGate :: (List.replicate 5 (.step true ()) ++ (List.replicate 3 (.step false ()) ++
    .start true (.runIfAllowed 2) :: List.replicate 5 (.step true ())))

/-- The `Revoke` is the last change and the gate stays open: an action runs behind it. -/
theorem revoked_gate_sends : ∃ c : Config Bool (DataPlaneGate Bool) Unit,
    Config.ReachesOffered spawn (fun _ _ _ => True) (fun _ _ _ => True) (Config.idle {}) c ∧
      c.state.log = [.opened 1, .revoked, .acted 2] ∧ c.state.allowed = true ∧
      (∀ i, c.state.changes i = none) ∧ ¬ FollowsLast c.state := by
  have hrun : (Config.follow spawn (fun _ _ _ => True) (fun _ _ _ => True) openWithinRevoke
      (Config.idle {})).any (fun c => c.state.log = [.opened 1, .revoked, .acted 2] ∧
        c.state.allowed = true ∧ ∀ i, c.state.changes i = none) = true := by
    decide
  obtain ⟨c, hc, hends⟩ := (Option.any_eq_true _ _).mp hrun
  obtain ⟨hlog, hallowed, hquiet⟩ := of_decide_eq_true hends
  refine ⟨c, Config.ReachesOffered.follow .refl _ hc, hlog, hallowed, hquiet, fun hfollows => ?_⟩
  have hforce := hfollows.acted [.opened 1, .revoked] 2 [] (by rw [hlog]; rfl)
  cases hforce

end HarmonyScreen.Proofs.GateOrder
