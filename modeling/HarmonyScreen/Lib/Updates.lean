import Mathlib.Data.List.Basic
import Mathlib.Data.List.Induction

namespace HarmonyScreen.Lib.Updates

/-- A change of a stored value: an update reads it first and may refuse, a write does not
look at it. `ε` is what the change learns when it is made. -/
inductive Change (V ε : Type) where
  | update (mutate : ε → V → Option V)
  | write (create : ε → V)

/-- A thread and the length of the history at its call. -/
abbrev Call := Nat × Nat

inductive Event (V ε : Type) where
  | called (call : Call) (change : Change V ε)
  | read (call : Call)
  | wrote (call : Call) (change : Change V ε) (learned : ε)
  | failed (call : Call)
  | returned (call : Call)

/-- A change that took effect. -/
structure Effect (V ε : Type) where
  call : Call
  change : Change V ε
  learned : ε

variable {V ε : Type}

def Change.apply : Change V ε → ε → V → V
  | update mutate, e, value => (mutate e value).getD value
  | write create, e, _ => create e

def Event.call : Event V ε → Call
  | .called call _ => call
  | .read call => call
  | .wrote call _ _ => call
  | .failed call => call
  | .returned call => call

def Event.effect? : Event V ε → Option (Effect V ε)
  | .wrote call change learned => some ⟨call, change, learned⟩
  | _ => none

def Effect.apply (w : Effect V ε) (value : V) : V := w.change.apply w.learned value

/-- The changes in the order in which they took effect. -/
def effects (log : List (Event V ε)) : List (Effect V ε) := log.filterMap Event.effect?

/-- The changes made one at a time. -/
def replay (value : V) (order : List (Effect V ε)) : V := order.foldl (fun v w => w.apply v) value

def eventsOf (c : Call) (log : List (Event V ε)) : List (Event V ε) :=
  log.filter fun e => e.call == c

/-- An update stands between its read and its write. -/
def Reading (log : List (Event V ε)) (c : Call) : Prop :=
  ∃ change, eventsOf c log = [.called c change, .read c]

/-- No plain write takes effect while an update stands between its read and its write. -/
def Orderly (log : List (Event V ε)) : Prop :=
  ∀ front c create learned back, log = front ++ .wrote c (.write create) learned :: back →
    ∀ c', ¬ Reading front c'

/-- One call had returned before the other was made. -/
def Precedes (log : List (Event V ε)) (a b : Call) : Prop :=
  ∃ front back, log = front ++ back ∧ .returned a ∈ front ∧ ∀ change, .called b change ∉ front

/-- The value is what the changes make of the first one, one at a time, in an order that
keeps the order of the calls that do not overlap. -/
def Serializable (initial : V) (log : List (Event V ε)) (value : V) : Prop :=
  ∃ order : List (Effect V ε), order.Perm (effects log) ∧ (order.map Effect.call).Nodup ∧
    (∀ w ∈ order, .called w.call w.change ∈ log) ∧
    (∀ c, .returned c ∈ log → c ∈ order.map Effect.call) ∧
    (∀ a b, Precedes log a b → ∃ earlier later, order = earlier ++ later ∧
      a ∈ earlier.map Effect.call ∧ b ∉ earlier.map Effect.call) ∧
    value = replay initial order

/-- What a call may have done so far. -/
inductive Phase (c : Call) : List (Event V ε) → Prop where
  | unknown : Phase c []
  | called (change : Change V ε) : Phase c [.called c change]
  | read (mutate : ε → V → Option V) : Phase c [.called c (.update mutate), .read c]
  | refused (change : Change V ε) : Phase c [.called c change, .failed c]
  | failed (mutate : ε → V → Option V) : Phase c [.called c (.update mutate), .read c, .failed c]
  | updated (mutate : ε → V → Option V) (learned : ε) :
      Phase c [.called c (.update mutate), .read c, .wrote c (.update mutate) learned]
  | written (create : ε → V) (learned : ε) :
      Phase c [.called c (.write create), .wrote c (.write create) learned]
  | updateReturned (mutate : ε → V → Option V) (learned : ε) :
      Phase c [.called c (.update mutate), .read c, .wrote c (.update mutate) learned, .returned c]
  | writeReturned (create : ε → V) (learned : ε) :
      Phase c [.called c (.write create), .wrote c (.write create) learned, .returned c]

/-- What holds at every moment: the calls are in their phases, and unless a plain write came
between a read and its write, the value is that of the changes made one at a time. -/
structure Kept (initial : V) (value : V) (log : List (Event V ε)) : Prop where
  fresh : ∀ e ∈ log, e.call.2 < log.length
  phase : ∀ c, Phase c (eventsOf c log)
  value : Orderly log → value = replay initial (effects log)

variable {initial value : V} {log front back more : List (Event V ε)} {e : Event V ε}
  {c c' : Call} {change : Change V ε} {learned : ε}

section Events

theorem eventsOf_append (c : Call) (log more : List (Event V ε)) :
    eventsOf c (log ++ more) = eventsOf c log ++ eventsOf c more := List.filter_append ..

@[simp] theorem eventsOf_own (h : e.call = c) : eventsOf c [e] = [e] := by
  simp [eventsOf, h]

@[simp] theorem eventsOf_other (h : e.call ≠ c) : eventsOf c [e] = [] := by
  simp [eventsOf, h]

theorem mem_eventsOf : e ∈ eventsOf c log ↔ e ∈ log ∧ e.call = c := by
  simp [eventsOf]

theorem eventsOf_snoc {l : List (Event V ε)} (h : eventsOf c log = l) (he : e.call = c) :
    eventsOf c (log ++ [e]) = l ++ [e] := by
  rw [eventsOf_append, h, eventsOf_own he]

theorem effects_append (log more : List (Event V ε)) :
    effects (log ++ more) = effects log ++ effects more := List.filterMap_append ..

theorem replay_append (initial : V) (order more : List (Effect V ε)) :
    replay initial (order ++ more) = replay (replay initial order) more := List.foldl_append ..

theorem mem_effects {w : Effect V ε} :
    w ∈ effects log ↔ .wrote w.call w.change w.learned ∈ log := by
  rw [effects, List.mem_filterMap]
  constructor
  · rintro ⟨e, he, hw⟩
    cases e with
    | wrote call change learned =>
      cases hw
      exact he
    | _ => cases hw
  · intro h
    exact ⟨_, h, rfl⟩

theorem Orderly.before (h : Orderly (log ++ more)) : Orderly log := by
  intro front c create learned back hsplit
  refine h front c create learned (back ++ more) ?_
  rw [hsplit, List.append_assoc, List.cons_append]

theorem Orderly.now {create : ε → V}
    (h : Orderly (log ++ [.wrote c (.write create) learned])) (c' : Call) : ¬ Reading log c' :=
  h log c create learned [] rfl c'

theorem Reading.other (h : Reading log c) (hmore : ∀ e ∈ more, e.call ≠ c) :
    Reading (log ++ more) c := by
  obtain ⟨change, hevents⟩ := h
  refine ⟨change, ?_⟩
  have hnone : eventsOf c more = [] := by
    apply List.filter_eq_nil_iff.mpr
    intro e he
    simpa using hmore e he
  rw [eventsOf_append, hevents, hnone, List.append_nil]

end Events

section Phases

/-- The first thing a call does is to be made. -/
theorem Phase.called_mem {l : List (Event V ε)} (h : Phase c l) (hl : e ∈ l) :
    ∃ change rest, l = .called c change :: rest := by
  cases h with
  | unknown => cases hl
  | _ => exact ⟨_, _, rfl⟩

/-- A call that has returned has made its change. -/
theorem Phase.returned_mem {l : List (Event V ε)} (h : Phase c l) (hl : .returned c ∈ l) :
    ∃ rest change learned, l = rest ++ [.wrote c change learned, .returned c] ∧
      .returned c ∉ rest := by
  cases h with
  | updateReturned mutate learned =>
    exact ⟨[.called c (.update mutate), .read c], .update mutate, learned, rfl, by simp⟩
  | writeReturned create learned =>
    exact ⟨[.called c (.write create)], .write create, learned, rfl, by simp⟩
  | _ => simp at hl

/-- A change that took effect is the one that was called for, and took effect once. -/
theorem Phase.wrote_mem {l : List (Event V ε)} (h : Phase c l)
    (hl : .wrote c change learned ∈ l) :
    .called c change ∈ l ∧ l.filterMap Event.effect? = [⟨c, change, learned⟩] := by
  cases h with
  | updated mutate learned' =>
    simp only [List.mem_cons, reduceCtorEq, List.not_mem_nil, or_false, false_or,
      Event.wrote.injEq, true_and] at hl
    obtain ⟨rfl, rfl⟩ := hl
    exact ⟨List.mem_cons_self, rfl⟩
  | written create learned' =>
    simp only [List.mem_cons, reduceCtorEq, List.not_mem_nil, or_false, false_or,
      Event.wrote.injEq, true_and] at hl
    obtain ⟨rfl, rfl⟩ := hl
    exact ⟨List.mem_cons_self, rfl⟩
  | updateReturned mutate learned' =>
    simp only [List.mem_cons, reduceCtorEq, List.not_mem_nil, or_false, false_or,
      Event.wrote.injEq, true_and] at hl
    obtain ⟨rfl, rfl⟩ := hl
    exact ⟨List.mem_cons_self, rfl⟩
  | writeReturned create learned' =>
    simp only [List.mem_cons, reduceCtorEq, List.not_mem_nil, or_false, false_or,
      Event.wrote.injEq, true_and] at hl
    obtain ⟨rfl, rfl⟩ := hl
    exact ⟨List.mem_cons_self, rfl⟩
  | _ => simp at hl

end Phases

section Steps

theorem Kept.start (initial : V) : Kept initial initial ([] : List (Event V ε)) :=
  ⟨fun _ he => (nomatch he), fun _ => .unknown, fun _ => rfl⟩

theorem phase_snoc (hphase : ∀ c, Phase c (eventsOf c log))
    (hown : Phase e.call (eventsOf e.call log ++ [e])) (c : Call) :
    Phase c (eventsOf c (log ++ [e])) := by
  rw [eventsOf_append]
  by_cases h : e.call = c
  · subst h
    rwa [eventsOf_own rfl]
  · rw [eventsOf_other h, List.append_nil]
    exact hphase c

theorem fresh_snoc (h : ∀ f ∈ log, f.call.2 < log.length) (he : e.call.2 ≤ log.length) :
    ∀ f ∈ log ++ [e], f.call.2 < (log ++ [e]).length := by
  intro f hf
  rw [List.length_append, List.length_singleton]
  rcases List.mem_append.mp hf with hf | hf
  · have hless := h f hf
    omega
  · obtain rfl := List.mem_singleton.mp hf
    omega

/-- Nothing is known of a call before it is made. -/
theorem Kept.new (h : Kept initial value log) (i : Nat) : eventsOf (i, log.length) log = [] := by
  apply List.filter_eq_nil_iff.mpr
  intro f hf
  have hless := h.fresh f hf
  rw [beq_iff_eq]
  intro heq
  rw [heq] at hless
  exact Nat.lt_irrefl _ hless

/-- An event that leaves the value as it is. -/
theorem Kept.note (h : Kept initial value log) (he : e.call.2 ≤ log.length)
    (heffect : e.effect? = none) (hown : Phase e.call (eventsOf e.call log ++ [e])) :
    Kept initial value (log ++ [e]) := by
  refine ⟨fresh_snoc h.fresh he, phase_snoc h.phase hown, ?_⟩
  intro horderly
  have hnone : effects [e] = [] := by simp [effects, heffect]
  rw [effects_append, hnone, List.append_nil]
  exact h.value horderly.before

theorem Kept.called (h : Kept initial value log) (i : Nat) (change : Change V ε) :
    Kept initial value (log ++ [.called (i, log.length) change]) ∧
      eventsOf (i, log.length) (log ++ [.called (i, log.length) change]) =
        [.called (i, log.length) change] := by
  have hevents : eventsOf (i, log.length) (log ++ [.called (i, log.length) change]) =
      [.called (i, log.length) change] := by
    rw [eventsOf_append, h.new i, List.nil_append]
    exact eventsOf_own rfl
  refine ⟨h.note (Nat.le_refl _) rfl ?_, hevents⟩
  rw [Event.call, h.new i]
  exact .called change

theorem Kept.le_length (h : Kept initial value log) (hc : eventsOf c log ≠ []) :
    c.2 ≤ log.length := by
  obtain ⟨f, hf⟩ := List.exists_mem_of_ne_nil _ hc
  obtain ⟨hlog, rfl⟩ := mem_eventsOf.mp hf
  exact Nat.le_of_lt (h.fresh f hlog)

/-- The next event of a call that is in a known phase. -/
theorem Kept.next (h : Kept initial value log) {l : List (Event V ε)} (hc : eventsOf c log = l)
    (hl : l ≠ []) (he : e.call = c) (heffect : e.effect? = none) (hphase : Phase c (l ++ [e])) :
    Kept initial value (log ++ [e]) ∧ eventsOf c (log ++ [e]) = l ++ [e] := by
  subst he
  exact ⟨h.note (h.le_length (hc ▸ hl)) heffect (hc ▸ hphase), eventsOf_snoc hc rfl⟩

/-- A write takes effect whatever the value is. -/
theorem Kept.written {create : ε → V} (h : Kept initial value log)
    (hc : eventsOf c log = [.called c (.write create)]) :
    Kept initial (create learned) (log ++ [.wrote c (.write create) learned]) := by
  refine ⟨fresh_snoc h.fresh ?_, phase_snoc h.phase ?_, ?_⟩
  · exact h.le_length (c := c) (hc ▸ List.cons_ne_nil _ _)
  · rw [Event.call, hc]
    exact .written create learned
  · intro _
    rw [effects_append, replay_append]
    rfl

/-- An update takes effect on the value that it has read, unless a write came between. -/
theorem Kept.updated {mutate : ε → V → Option V} {current changed : V}
    (h : Kept initial value log) (hc : eventsOf c log = [.called c (.update mutate), .read c])
    (hread : Orderly log → value = current) (hmutate : mutate learned current = some changed) :
    Kept initial changed (log ++ [.wrote c (.update mutate) learned]) := by
  refine ⟨fresh_snoc h.fresh ?_, phase_snoc h.phase ?_, ?_⟩
  · exact h.le_length (c := c) (hc ▸ List.cons_ne_nil _ _)
  · rw [Event.call, hc]
    exact .updated mutate learned
  · intro horderly
    have hcurrent := (h.value horderly.before).symm.trans (hread horderly.before)
    have heffect : effects [Event.wrote c (.update mutate) learned] =
        [⟨c, .update mutate, learned⟩] := rfl
    rw [effects_append, replay_append, hcurrent, heffect]
    simp [replay, Effect.apply, Change.apply, hmutate]

end Steps

section Serializable

theorem effects_of_call (c : Call) (log : List (Event V ε)) :
    (effects log).filter (fun w => w.call == c) = (eventsOf c log).filterMap Event.effect? := by
  induction log with
  | nil => rfl
  | cons e log ih =>
    have hlater : (effects (e :: log)).filter (fun w => w.call == c) =
        (effects [e]).filter (fun w => w.call == c) ++
          (effects log).filter (fun w => w.call == c) := by
      rw [← List.filter_append, ← effects_append, List.singleton_append]
    have hevents : eventsOf c (e :: log) = eventsOf c [e] ++ eventsOf c log :=
      eventsOf_append c [e] log
    rw [hlater, hevents, List.filterMap_append, ih]
    congr 1
    by_cases h : e.call = c
    · subst h
      rw [eventsOf_own rfl]
      cases e <;> simp [effects, Event.effect?, Event.call]
    · rw [eventsOf_other h]
      cases e <;> simp_all [effects, Event.effect?, Event.call]

theorem effects_nodup (hphase : ∀ c, Phase c (eventsOf c log)) :
    ((effects log).map Effect.call).Nodup := by
  rw [List.nodup_iff_count]
  intro c
  have hcount : ((effects log).map Effect.call).count c =
      ((effects log).filter fun w => w.call == c).length := by
    rw [List.count, List.countP_map, List.countP_eq_length_filter]
    rfl
  rw [hcount, effects_of_call]
  by_cases hnone : (eventsOf c log).filterMap Event.effect? = []
  · rw [hnone]
    exact Nat.zero_le 1
  · obtain ⟨w, hw⟩ := List.exists_mem_of_ne_nil _ hnone
    obtain ⟨e, he, heffect⟩ := List.mem_filterMap.mp hw
    cases e with
    | wrote call change learned =>
      obtain ⟨-, rfl⟩ := mem_eventsOf.mp he
      rw [((hphase _).wrote_mem he).2]
      exact Nat.le_refl 1
    | _ => cases heffect

theorem mem_effects_call : c ∈ (effects log).map Effect.call ↔
    ∃ change learned, .wrote c change learned ∈ log := by
  rw [List.mem_map]
  constructor
  · rintro ⟨w, hw, rfl⟩
    exact ⟨w.change, w.learned, mem_effects.mp hw⟩
  · rintro ⟨change, learned, h⟩
    exact ⟨⟨c, change, learned⟩, mem_effects.mpr h, rfl⟩

/-- At each moment the calls that have returned have made their changes. -/
theorem wrote_of_returned (hphase : ∀ c, Phase c (eventsOf c log)) (hsplit : log = front ++ back)
    (hreturned : .returned c ∈ front) : ∃ change learned, .wrote c change learned ∈ front := by
  have hfront : .returned c ∈ eventsOf c front := mem_eventsOf.mpr ⟨hreturned, rfl⟩
  have hevents : eventsOf c log = eventsOf c front ++ eventsOf c back :=
    hsplit ▸ eventsOf_append c front back
  obtain ⟨rest, change, learned, hlog, hrest⟩ := (hphase c).returned_mem
    (hevents ▸ List.mem_append_left _ hfront)
  refine ⟨change, learned, ?_⟩
  rcases List.eq_nil_or_concat (eventsOf c back) with hnone | ⟨init, last, hlast⟩
  · have hwrote : .wrote c change learned ∈ eventsOf c front := by
      rw [hnone, List.append_nil] at hevents
      rw [← hevents, hlog]
      simp
    exact (mem_eventsOf.mp hwrote).1
  · exfalso
    rw [hlast, List.concat_eq_append, ← List.append_assoc, hlog] at hevents
    have hends : (rest ++ [.wrote c change learned]) ++ [.returned c] =
        (eventsOf c front ++ init) ++ [last] := by
      rw [List.append_assoc]
      exact hevents
    have hcut := (List.append_inj' hends rfl).1
    have hmem : .returned c ∈ rest ++ [.wrote c change learned] :=
      hcut ▸ List.mem_append_left _ hfront
    rcases List.mem_append.mp hmem with hmem | hmem
    · exact hrest hmem
    · simp at hmem

/-- At each moment the changes that took effect have been called for. -/
theorem called_of_wrote (hphase : ∀ c, Phase c (eventsOf c log)) (hsplit : log = front ++ back)
    (hwrote : .wrote c change learned ∈ front) : ∃ change, .called c change ∈ front := by
  have hfront : .wrote c change learned ∈ eventsOf c front := mem_eventsOf.mpr ⟨hwrote, rfl⟩
  have hevents : eventsOf c log = eventsOf c front ++ eventsOf c back :=
    hsplit ▸ eventsOf_append c front back
  obtain ⟨first, rest, hlog⟩ := (hphase c).called_mem (hevents ▸ List.mem_append_left _ hfront)
  refine ⟨first, ?_⟩
  obtain ⟨e, events, hcons⟩ := List.exists_cons_of_ne_nil (List.ne_nil_of_mem hfront)
  rw [hlog, hcons, List.cons_append] at hevents
  obtain ⟨rfl, -⟩ := List.cons.inj hevents
  exact (mem_eventsOf.mp (hcons ▸ List.mem_cons_self)).1

theorem Kept.serializable (h : Kept initial value log) (horderly : Orderly log) :
    Serializable initial log value := by
  refine ⟨effects log, List.Perm.refl _, effects_nodup h.phase, ?_, ?_, ?_, h.value horderly⟩
  · intro w hw
    have hwrote : .wrote w.call w.change w.learned ∈ eventsOf w.call log :=
      mem_eventsOf.mpr ⟨mem_effects.mp hw, rfl⟩
    exact (mem_eventsOf.mp ((h.phase w.call).wrote_mem hwrote).1).1
  · intro c hc
    exact mem_effects_call.mpr (wrote_of_returned h.phase (List.append_nil log).symm hc)
  · rintro a b ⟨front, back, hsplit, ha, hb⟩
    refine ⟨effects front, effects back, by rw [hsplit, effects_append], ?_, ?_⟩
    · exact mem_effects_call.mpr (wrote_of_returned h.phase hsplit ha)
    · intro hmem
      obtain ⟨change, learned, hwrote⟩ := mem_effects_call.mp hmem
      obtain ⟨first, hcalled⟩ := called_of_wrote h.phase hsplit hwrote
      exact hb first hcalled

end Serializable

end HarmonyScreen.Lib.Updates
