import HarmonyScreen.Lib.Program
import Mathlib.Data.List.Induction

namespace HarmonyScreen.Lib

namespace Program

/-- Returns after at most so many sections, none of which waits. -/
def Within : Nat → Program σ ε α → Prop
  | _, ret _ => True
  | 0, atomic _ _ _ => False
  | n + 1, atomic ready _ next => (∀ s, ready s = true) ∧ ∀ s e, Within n (next e s)

/-- With none but good answers, what is returned satisfies `A`. -/
def Fulfils (good : ε → Prop) (A : α → Prop) : Program σ ε α → Prop
  | ret a => A a
  | atomic _ _ next => ∀ s e, good e → Fulfils good A (next e s)

/-- Undisturbed from a state on, `Q` holds at the end. -/
def Ends (Q : α → σ → Prop) : Program σ ε α → σ → Prop
  | ret a, s => Q a s
  | atomic _ act next, s => ∀ e, Ends Q (next e s) (act e s)

theorem Within.mono {m n : Nat} {p : Program σ ε α} (h : p.Within m) (hmn : m ≤ n) :
    p.Within n := by
  induction m generalizing n p with
  | zero =>
    cases p with
    | ret a => cases n <;> trivial
    | atomic ready act next => cases h
  | succ m ih =>
    cases p with
    | ret a => cases n <;> trivial
    | atomic ready act next =>
      obtain ⟨n, rfl⟩ : ∃ k, n = k + 1 := ⟨n - 1, by omega⟩
      exact ⟨h.1, fun s e => ih (h.2 s e) (by omega)⟩

end Program

/-- Calls of one program behind each other: each waits until the one before it has returned. -/
structure Serial (σ ε α : Type) where
  shared : σ
  calls : List (Program σ ε α)

/-- A schedule makes further calls and lets calls take one section. -/
inductive Turn (ε : Type) where
  | call
  | take (index : Nat) (learned : ε)

namespace Serial

variable {σ ε α : Type} {job : Program σ ε α} {spec : List α → σ → Prop} {bound : Nat}

def settled (q : Serial σ ε α) (index : Nat) : Bool :=
  ((q.calls[index]?).bind Program.result).isSome

/-- The call before this one, if there is one, has returned. -/
def isNext (q : Serial σ ε α) (index : Nat) : Bool := index == 0 || q.settled (index - 1)

def step (job : Program σ ε α) (q : Serial σ ε α) : Turn ε → Serial σ ε α
  | .call => { q with calls := q.calls ++ [job] }
  | .take index e =>
    match q.calls[index]? with
    | some (.atomic ready act next) =>
      if q.isNext index && ready q.shared then
        ⟨act e q.shared, q.calls.set index (next e q.shared)⟩
      else q
    | _ => q

def run (job : Program σ ε α) (q : Serial σ ε α) (turns : List (Turn ε)) : Serial σ ε α :=
  turns.foldl (step job) q

/-- What the calls have returned, in the order of the calls. -/
def outcomes (q : Serial σ ε α) : List α := q.calls.filterMap Program.result

/-- The calls have returned in order up to one that is under way, and the later ones have
not begun. -/
inductive InOrder (job : Program σ ε α) (spec : List α → σ → Prop) (q : Serial σ ε α) : Prop where
  | idle (done : List α) (hcalls : q.calls = done.map .ret) (hspec : spec done q.shared)
  | busy (done : List α) (active : Program σ ε α) (waiting : Nat)
      (hcalls : q.calls = done.map .ret ++ active :: List.replicate waiting job)
      (hopen : active.result = none) (hdone : ∃ s, spec done s)
      (hactive : active.Ends (fun a => spec (done ++ [a])) q.shared)

/-- A call that has returned hands on to the next one that has not. -/
theorem InOrder.of_active {q : Serial σ ε α}
    (hjob : ∀ done s, done.length < bound → spec done s → job.Ends (fun a => spec (done ++ [a])) s)
    {done : List α} {active : Program σ ε α} {waiting : Nat}
    (hcalls : q.calls = done.map .ret ++ active :: List.replicate waiting job)
    (hbound : q.calls.length ≤ bound) (hdone : ∃ s, spec done s)
    (hactive : active.Ends (fun a => spec (done ++ [a])) q.shared) : InOrder job spec q := by
  induction waiting generalizing done active with
  | zero =>
    cases active with
    | ret a => exact .idle (done ++ [a]) (by simp [hcalls]) hactive
    | atomic ready act next => exact .busy done _ 0 hcalls rfl hdone hactive
  | succ waiting ih =>
    cases active with
    | ret a =>
      have hlength := congrArg List.length hcalls
      simp only [List.length_append, List.length_map, List.length_cons, List.length_replicate]
        at hlength
      refine ih ?_ ⟨q.shared, hactive⟩ (hjob _ _ ?_ hactive)
      · simp [hcalls, List.replicate_succ]
      · rw [List.length_append, List.length_singleton]
        omega
    | atomic ready act next => exact .busy done _ (waiting + 1) hcalls rfl hdone hactive

theorem InOrder.call {q : Serial σ ε α} (h : InOrder job spec q)
    (hjob : ∀ done s, done.length < bound → spec done s → job.Ends (fun a => spec (done ++ [a])) s)
    (hbound : (q.step job .call).calls.length ≤ bound) : InOrder job spec (q.step job .call) := by
  cases h with
  | idle done hcalls hspec =>
    have hstep : (q.step job .call).calls = done.map .ret ++ job :: List.replicate 0 job := by
      simp [step, hcalls]
    have hlength : done.length < bound := by
      rw [hstep, List.length_append, List.length_map, List.length_cons] at hbound
      omega
    exact .of_active hjob hstep hbound ⟨_, hspec⟩ (hjob done _ hlength hspec)
  | busy done active waiting hcalls hopen hdone hactive =>
    refine .busy done active (waiting + 1) ?_ hopen hdone hactive
    simp [step, hcalls, List.replicate_succ']

theorem call_cases {done : List α} {active p : Program σ ε α} {waiting index : Nat}
    (hcall : (done.map .ret ++ active :: List.replicate waiting job)[index]? = some p) :
    (∃ a, p = .ret a ∧ index < done.length) ∨ (index = done.length ∧ p = active) ∨
      (done.length < index ∧ p = job) := by
  rcases Nat.lt_trichotomy index done.length with hless | rfl | hmore
  · rw [List.getElem?_append_left (by simpa using hless), List.getElem?_map] at hcall
    obtain ⟨a, -, rfl⟩ := Option.map_eq_some_iff.mp hcall
    exact .inl ⟨a, rfl, hless⟩
  · rw [List.getElem?_append_right (by simp)] at hcall
    simp only [List.length_map, Nat.sub_self, List.getElem?_cons_zero, Option.some.injEq] at hcall
    exact .inr (.inl ⟨rfl, hcall.symm⟩)
  · obtain ⟨k, rfl⟩ : ∃ k, index = done.length + (k + 1) := ⟨index - done.length - 1, by omega⟩
    rw [List.getElem?_append_right (by simp)] at hcall
    simp only [List.length_map, Nat.add_sub_cancel_left, List.getElem?_cons_succ] at hcall
    exact .inr (.inr ⟨hmore, List.eq_of_mem_replicate (List.mem_of_getElem? hcall)⟩)

/-- Only the call that is under way can take a section. -/
theorem index_of_isNext {q : Serial σ ε α} {done : List α} {active p : Program σ ε α}
    {waiting index : Nat}
    (hcalls : q.calls = done.map .ret ++ active :: List.replicate waiting job)
    (hopen : active.result = none) (hcall : q.calls[index]? = some p) (hp : p.result = none)
    (hnext : q.isNext index = true) : index = done.length ∧ p = active := by
  rcases call_cases (hcalls ▸ hcall) with ⟨a, rfl, -⟩ | hhere | ⟨hmore, rfl⟩
  · cases hp
  · exact hhere
  · exfalso
    have hbefore : q.settled (index - 1) = true := by
      simpa [isNext, show index ≠ 0 by omega] using hnext
    obtain ⟨a, ha⟩ := Option.isSome_iff_exists.mp hbefore
    obtain ⟨r, hr, hresult⟩ := Option.bind_eq_some_iff.mp ha
    rcases call_cases (hcalls ▸ hr) with ⟨b, -, hless⟩ | ⟨-, rfl⟩ | ⟨-, rfl⟩
    · omega
    · rw [hopen] at hresult
      cases hresult
    · rw [hp] at hresult
      cases hresult

theorem InOrder.take {q : Serial σ ε α} (h : InOrder job spec q)
    (hjob : ∀ done s, done.length < bound → spec done s → job.Ends (fun a => spec (done ++ [a])) s)
    (hbound : q.calls.length ≤ bound) (index : Nat) (e : ε) :
    InOrder job spec (q.step job (.take index e)) := by
  simp only [step]
  split
  · rename_i ready act next hcall
    split
    · rename_i hgo
      rw [Bool.and_eq_true] at hgo
      cases h with
      | idle done hcalls hspec =>
        rw [hcalls, List.getElem?_map] at hcall
        obtain ⟨a, -, hret⟩ := Option.map_eq_some_iff.mp hcall
        cases hret
      | busy done active waiting hcalls hopen hdone hactive =>
        obtain ⟨rfl, rfl⟩ := index_of_isNext hcalls hopen hcall rfl hgo.1
        have hset : q.calls.set done.length (next e q.shared) =
            done.map .ret ++ next e q.shared :: List.replicate waiting job := by
          simp [hcalls]
        refine .of_active hjob hset ?_ hdone (hactive e)
        simpa using hbound
    · exact h
  · exact h

theorem length_step (q : Serial σ ε α) (turn : Turn ε) :
    q.calls.length ≤ (q.step job turn).calls.length := by
  cases turn with
  | call => simp [step]
  | take index e =>
    simp only [step]
    split
    · split
      · simp
      · exact Nat.le_refl _
    · exact Nat.le_refl _

theorem length_run (q : Serial σ ε α) (turns : List (Turn ε)) :
    q.calls.length ≤ (q.run job turns).calls.length := by
  induction turns generalizing q with
  | nil => exact Nat.le_refl _
  | cons turn turns ih => exact Nat.le_trans (length_step q turn) (ih (q.step job turn))

/-- The run lemma: as long as not too many calls are made, they stay in order. -/
theorem InOrder.run {q : Serial σ ε α} (h : InOrder job spec q)
    (hjob : ∀ done s, done.length < bound → spec done s → job.Ends (fun a => spec (done ++ [a])) s)
    (turns : List (Turn ε)) (hbound : (q.run job turns).calls.length ≤ bound) :
    InOrder job spec (q.run job turns) := by
  induction turns generalizing q with
  | nil => exact h
  | cons turn turns ih =>
    have hnext := Nat.le_trans (length_run (q.step job turn) turns) hbound
    refine ih ?_ hbound
    cases turn with
    | call => exact h.call hjob hnext
    | take index e =>
      exact h.take hjob (Nat.le_trans (length_step q (.take index e)) hnext) index e

theorem outcomes_ret (done : List α) :
    (done.map (.ret : α → Program σ ε α)).filterMap Program.result = done := by
  induction done with
  | nil => rfl
  | cons a done ih => simp [Program.result, ih]

/-- The outcomes of calls in order are those of the calls that are done, unless the job returns
at once. -/
theorem InOrder.outcomes {q : Serial σ ε α} (h : InOrder job spec q) (hopen : job.result = none) :
    ∃ s, spec q.outcomes s := by
  cases h with
  | idle done hcalls hspec =>
    rw [Serial.outcomes, hcalls, outcomes_ret]
    exact ⟨_, hspec⟩
  | busy done active waiting hcalls hactive hdone _ =>
    have hnone : (List.replicate waiting job).filterMap Program.result = [] := by
      rw [List.filterMap_eq_nil_iff]
      intro p hp
      rw [List.eq_of_mem_replicate hp]
      exact hopen
    rw [Serial.outcomes, hcalls, List.filterMap_append, outcomes_ret,
      List.filterMap_cons_none hactive, hnone, List.append_nil]
    exact hdone

/-- When all calls have returned, the shared state is as the last one left it. -/
theorem InOrder.all_settled {q : Serial σ ε α} (h : InOrder job spec q)
    (hall : ∀ index < q.calls.length, q.settled index = true) : spec q.outcomes q.shared := by
  cases h with
  | idle done hcalls hspec =>
    rw [Serial.outcomes, hcalls, outcomes_ret]
    exact hspec
  | busy done active waiting hcalls hactive _ _ =>
    have hsettled := hall done.length (by simp [hcalls])
    have hcall : q.calls[done.length]? = some active := by simp [hcalls]
    simp [settled, hcall, hactive] at hsettled

/-- What a call has when it is made and keeps in each of its sections holds of every call. -/
theorem forall_run {P : List (Turn ε) → Nat → Program σ ε α → Prop}
    (hcall : ∀ turns index, P turns index job)
    (hkeep : ∀ turns turn index p, P turns index p → P (turns ++ [turn]) index p)
    (htake : ∀ turns index ready act next (s : σ) e, ready s = true →
      P turns index (.atomic ready act next) → P (turns ++ [.take index e]) index (next e s))
    (s : σ) (turns : List (Turn ε)) {index : Nat} {p : Program σ ε α}
    (h : ((⟨s, []⟩ : Serial σ ε α).run job turns).calls[index]? = some p) : P turns index p := by
  induction turns using List.reverseRecOn generalizing index p with
  | nil => cases h
  | append_singleton turns turn ih =>
    have hrun : (⟨s, []⟩ : Serial σ ε α).run job (turns ++ [turn]) =
        ((⟨s, []⟩ : Serial σ ε α).run job turns).step job turn := by
      simp [run]
    rw [hrun] at h
    generalize (⟨s, []⟩ : Serial σ ε α).run job turns = q at h ih
    cases turn with
    | call =>
      rw [step, List.getElem?_append] at h
      split at h
      · exact hkeep _ _ _ _ (ih h)
      · obtain rfl := List.mem_singleton.mp (List.mem_of_getElem? h)
        exact hcall _ _
    | take taken e =>
      simp only [step] at h
      split at h
      · rename_i ready act next hat
        split at h
        · rename_i hgo
          rw [Bool.and_eq_true] at hgo
          rw [List.getElem?_set] at h
          split at h
          · rename_i heq
            subst heq
            split at h
            · obtain rfl := Option.some.inj h
              exact htake _ _ _ _ _ _ _ hgo.2 (ih hat)
            · cases h
          · exact hkeep _ _ _ _ (ih h)
        · exact hkeep _ _ _ _ (ih h)
      · exact hkeep _ _ _ _ (ih h)

/-- A call that learns nothing bad returns nothing bad. -/
theorem fulfils_run {good : ε → Prop} {A : α → Prop} (hjob : job.Fulfils good A) (s : σ)
    (turns : List (Turn ε)) {index : Nat} {p : Program σ ε α}
    (h : ((⟨s, []⟩ : Serial σ ε α).run job turns).calls[index]? = some p)
    (hgood : ∀ e, .take index e ∈ turns → good e) : p.Fulfils good A := by
  have hall := forall_run (P := fun turns index p =>
    (∀ e, .take index e ∈ turns → good e) → p.Fulfils good A) (fun _ _ _ => hjob)
    (fun turns turn index p hp hgood => hp fun e he => hgood e (List.mem_append_left _ he))
    (fun turns index ready act next s e hgo hp hgood =>
      hp (fun e he => hgood e (List.mem_append_left _ he)) s e (hgood e (by simp))) s turns h
  exact hall hgood

theorem within_run {n : Nat} (hjob : job.Within n) (s : σ) (turns : List (Turn ε)) {index : Nat}
    {p : Program σ ε α} (h : ((⟨s, []⟩ : Serial σ ε α).run job turns).calls[index]? = some p) :
    p.Within n := by
  refine forall_run (P := fun _ _ p => p.Within n) (fun _ _ => hjob) (fun _ _ _ _ hp => hp) ?_
    s turns h
  intro turns index ready act next s e hgo hp
  cases n with
  | zero => cases hp
  | succ n => exact (hp.2 s e).mono (Nat.le_succ n)

theorem step_ret {q : Serial σ ε α} {index : Nat} {a : α} (hcall : q.calls[index]? = some (.ret a))
    (e : ε) : q.step job (.take index e) = q := by
  simp [step, hcall]

theorem step_take {q : Serial σ ε α} {index : Nat} {ready : σ → Bool} {act : ε → σ → σ}
    {next : ε → σ → Program σ ε α} (hcall : q.calls[index]? = some (.atomic ready act next))
    (hnext : q.isNext index = true) (hready : ready q.shared = true) (e : ε) :
    q.step job (.take index e) = ⟨act e q.shared, q.calls.set index (next e q.shared)⟩ := by
  simp [step, hcall, hnext, hready]

theorem isNext_set {q : Serial σ ε α} {index : Nat} (hnext : q.isNext index = true) (s : σ)
    (p : Program σ ε α) : (⟨s, q.calls.set index p⟩ : Serial σ ε α).isNext index = true := by
  rcases Nat.eq_zero_or_pos index with rfl | hpos
  · rfl
  · have hother : index ≠ index - 1 := by omega
    simpa [isNext, settled, List.getElem?_set_ne hother] using hnext

/-- A call whose turn has come returns within its number of sections, whatever they learn. -/
theorem settles {n : Nat} {q : Serial σ ε α} {index : Nat} {p : Program σ ε α}
    (hcall : q.calls[index]? = some p) (hp : p.Within n) (hnext : q.isNext index = true)
    (learned : List ε) (hlength : n ≤ learned.length) :
    (q.run job (learned.map (.take index))).settled index = true := by
  induction learned generalizing q p n with
  | nil =>
    obtain rfl : n = 0 := Nat.le_zero.mp hlength
    cases p with
    | ret a => simp [run, settled, hcall, Program.result]
    | atomic ready act next => cases hp
  | cons e learned ih =>
    change ((q.step job (.take index e)).run job (learned.map (.take index))).settled index = true
    cases p with
    | ret a =>
      rw [step_ret hcall]
      exact ih (n := 0) hcall trivial hnext (Nat.zero_le _)
    | atomic ready act next =>
      cases n with
      | zero => cases hp
      | succ n =>
        rw [step_take hcall hnext (hp.1 _)]
        have hlt := (List.getElem?_eq_some_iff.mp hcall).1
        have hset : (q.calls.set index (next e q.shared))[index]? = some (next e q.shared) :=
          List.getElem?_set_self hlt
        exact ih hset (hp.2 q.shared e) (isNext_set hnext _ _)
          (Nat.le_of_succ_le_succ hlength)

end Serial

end HarmonyScreen.Lib
