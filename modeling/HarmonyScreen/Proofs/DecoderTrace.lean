import HarmonyScreen.Receiver.DecoderSystem

namespace HarmonyScreen.Proofs.DecoderTrace
open Receiver

/-- How far the inputs of a codec instance have come: none is due, codec data is due,
codec data was pushed, or a sync frame was pushed behind it. -/
inductive Stage where
  | halted
  | opened
  | configured
  | flowing
  deriving DecidableEq, Repr

/-- What may be pushed, and the stage behind it. -/
def Stage.push : Stage → DecoderInputKind → Option Stage
  | .halted, _ => none
  | _, .codecData => some .configured
  | .configured, .syncFrame => some .flowing
  | .flowing, .syncFrame | .flowing, .frame => some .flowing
  | _, _ => none

/-- From here on codec data is due. -/
def Stage.reopen : Stage → Stage
  | .halted => .halted
  | _ => .opened

/-- The pump took an input that the recovery state admits and its slot is too small for. -/
def oversized : Observation → Bool
  | .popped slot input state =>
    decoderInputAllowed state input.kind && !slot.fits input.bytes.length
  | _ => false

/-- What one observation makes of the stage; `none` where it must not come. -/
def Stage.step (stage : Stage) (o : Observation) : Option Stage :=
  match o with
  | .started => some .opened
  | .halted => some .halted
  | .refused => some stage.reopen
  | .pushed slot input =>
    if stage = .halted then none
    else if slot.pushes then stage.push input.kind else some .opened
  | .popped _ _ _ => some (if oversized o then stage.reopen else stage)
  | _ => some stage

def stages (stage : Stage) : List Observation → Option Stage
  | [] => some stage
  | o :: log => (stage.step o).bind fun next => stages next log

/-- The stage a log ends with. -/
def stageOf (log : List Observation) : Option Stage := stages .halted log

variable {stage next : Stage} {log before since : List Observation} {o : Observation}

theorem stages_append (stage : Stage) (log more : List Observation) :
    stages stage (log ++ more) = (stages stage log).bind fun next => stages next more := by
  induction log generalizing stage with
  | nil => rfl
  | cons o log ih =>
    simp only [List.cons_append, stages]
    cases stage.step o with
    | none => rfl
    | some next => exact ih next

theorem stageOf_append (log more : List Observation) :
    stageOf (log ++ more) = (stageOf log).bind fun next => stages next more :=
  stages_append .halted log more

theorem stageOf_note (h : stageOf log = some stage) (hstep : stage.step o = some next) :
    stageOf (log ++ [o]) = some next := by
  rw [stageOf_append, h]
  simp [stages, hstep]

/-- The stage between two parts of a log. -/
theorem stages_split {more : List Observation} {last : Stage}
    (h : stages stage (log ++ more) = some last) :
    ∃ middle, stages stage log = some middle ∧ stages middle more = some last := by
  rw [stages_append] at h
  exact Option.bind_eq_some_iff.mp h

theorem stages_cons {last : Stage} (h : stages stage (o :: log) = some last) :
    ∃ next, stage.step o = some next ∧ stages next log = some last :=
  Option.bind_eq_some_iff.mp h

/-- The kind of an input that was pushed. -/
def pushedKind : Observation → Option DecoderInputKind
  | .pushed slot input => if slot.pushes then some input.kind else none
  | _ => none

def pushedKinds (log : List Observation) : List DecoderInputKind := log.filterMap pushedKind

/-- Codec data alone, or with one sync frame and any mix of frames behind it. -/
def IsGroup (group : List DecoderInputKind) : Prop :=
  group = [.codecData] ∨ ∃ mix, group = .codecData :: .syncFrame :: mix ∧
    ∀ kind ∈ mix, kind = .syncFrame ∨ kind = .frame

/-- A concatenation of groups. -/
def Grouped (kinds : List DecoderInputKind) : Prop :=
  ∃ groups : List (List DecoderInputKind), kinds = groups.flatten ∧ ∀ g ∈ groups, IsGroup g

theorem Grouped.append {kinds group : List DecoderInputKind} (h : Grouped kinds)
    (hg : IsGroup group) : Grouped (kinds ++ group) := by
  obtain ⟨groups, rfl, hgroups⟩ := h
  refine ⟨groups ++ [group], by simp, fun g hmem => ?_⟩
  rcases List.mem_append.mp hmem with hmem | hmem
  · exact hgroups g hmem
  · rw [List.mem_singleton.mp hmem]
    exact hg

/-- What was pushed since the start, by the stage: whole groups, or whole groups and a
last one that goes on. -/
inductive Built : Stage → List DecoderInputKind → Prop where
  | halted (h : Grouped kinds) : Built .halted kinds
  | opened (h : Grouped kinds) : Built .opened kinds
  | configured (h : Grouped kinds) : Built .configured (kinds ++ [.codecData])
  | flowing (h : Grouped kinds) (mix : List DecoderInputKind)
      (hmix : ∀ kind ∈ mix, kind = .syncFrame ∨ kind = .frame) :
      Built .flowing (kinds ++ .codecData :: .syncFrame :: mix)

theorem Built.grouped {kinds : List DecoderInputKind} (h : Built stage kinds) : Grouped kinds := by
  cases h with
  | halted h => exact h
  | opened h => exact h
  | configured h => exact h.append (.inl rfl)
  | flowing h mix hmix => exact h.append (.inr ⟨mix, rfl, hmix⟩)

theorem Built.reopen {kinds : List DecoderInputKind} (h : Built stage kinds) :
    Built stage.reopen kinds := by
  cases stage with
  | halted => exact h
  | opened | configured | flowing => exact .opened h.grouped

theorem Built.push {kinds : List DecoderInputKind} {kind : DecoderInputKind}
    (h : Built stage kinds) (hpush : stage.push kind = some next) :
    Built next (kinds ++ [kind]) := by
  have hgrouped := h.grouped
  cases h with
  | halted => cases hpush
  | opened =>
    cases kind <;> cases hpush
    exact .configured hgrouped
  | configured h =>
    cases kind <;> cases hpush
    · exact .configured hgrouped
    · rw [List.append_assoc]
      exact .flowing h [] fun _ hmem => by cases hmem
  | flowing h mix hmix =>
    have hmore : ∀ kind, (kind = .syncFrame ∨ kind = .frame) →
        ∀ k ∈ mix ++ [kind], k = .syncFrame ∨ k = .frame := by
      intro kind hkind k hmem
      rcases List.mem_append.mp hmem with hmem | hmem
      · exact hmix k hmem
      · rw [List.mem_singleton.mp hmem]
        exact hkind
    cases kind <;> cases hpush
    · exact .configured hgrouped
    · rw [List.append_assoc]
      exact .flowing h (mix ++ [.syncFrame]) (hmore _ (.inl rfl))
    · rw [List.append_assoc]
      exact .flowing h (mix ++ [.frame]) (hmore _ (.inr rfl))

/-- One observation that does not start the codec anew. -/
theorem Built.step {kinds : List DecoderInputKind} (h : Built stage kinds)
    (hstep : stage.step o = some next) (ho : o ≠ .started) :
    Built next (kinds ++ (pushedKind o).toList) := by
  cases o with
  | started => exact absurd rfl ho
  | halted =>
    cases hstep
    exact .halted (by simpa [pushedKind] using h.grouped)
  | refused =>
    cases hstep
    simpa [pushedKind] using h.reopen
  | popped slot input state =>
    cases hstep
    simp only [pushedKind, Option.toList_none, List.append_nil]
    split
    · exact h.reopen
    · exact h
  | pushed slot input =>
    simp only [Stage.step] at hstep
    split at hstep
    · cases hstep
    · split at hstep
      · rename_i hpushes
        simpa [pushedKind, hpushes] using h.push hstep
      · rename_i hpushes
        cases hstep
        simpa [pushedKind, hpushes] using Built.opened h.grouped
  | _ =>
    cases hstep
    simpa [pushedKind] using h

theorem Built.stages {kinds : List DecoderInputKind} (h : Built stage kinds)
    (hlog : stages stage log = some next) (hstarted : .started ∉ log) :
    Built next (kinds ++ pushedKinds log) := by
  induction log generalizing stage kinds with
  | nil =>
    cases hlog
    simpa [pushedKinds] using h
  | cons o log ih =>
    obtain ⟨middle, hstep, hrest⟩ := stages_cons hlog
    simp only [List.mem_cons, not_or] at hstarted
    have hnext := ih (h.step hstep (Ne.symm hstarted.1)) hrest hstarted.2
    have hkinds : pushedKinds (o :: log) = (pushedKind o).toList ++ pushedKinds log := by
      unfold pushedKinds
      rw [List.filterMap_cons]
      cases pushedKind o <;> rfl
    rw [hkinds, ← List.append_assoc]
    exact hnext

/-- What is pushed to an instance since it was started is a concatenation of groups. -/
theorem grouped_since_start (h : stageOf (before ++ .started :: since) = some stage)
    (hsince : .started ∉ since) : Grouped (pushedKinds since) := by
  obtain ⟨middle, -, hrest⟩ := stages_split h
  obtain ⟨behind, hstep, hrest⟩ := stages_cons hrest
  cases hstep
  have hbuilt : Built .opened [] := .opened ⟨[], rfl, fun _ hmem => by cases hmem⟩
  simpa using (hbuilt.stages hrest hsince).grouped

/-- A failed push, an input larger than its slot, or a refused admission. -/
def Upset : Observation → Prop
  | .pushed slot _ => slot.pushes = false
  | .popped slot input state => oversized (.popped slot input state) = true
  | .refused => True
  | _ => False

/-- Codec data is due, or nothing is. -/
def Due (stage : Stage) : Prop := stage = .halted ∨ stage = .opened

theorem due_reopen (stage : Stage) : Due stage.reopen := by
  cases stage <;> first | exact .inl rfl | exact .inr rfl

theorem upset_due (ho : Upset o) (hstep : stage.step o = some next) : Due next := by
  cases o with
  | pushed slot input =>
    have hfailed : slot.pushes = false := ho
    simp only [Stage.step, hfailed] at hstep
    split at hstep
    · cases hstep
    · cases hstep
      exact .inr rfl
  | popped slot input state =>
    have hlarge : oversized (.popped slot input state) = true := ho
    simp only [Stage.step, hlarge] at hstep
    cases hstep
    exact due_reopen stage
  | refused =>
    cases hstep
    exact due_reopen stage
  | _ => cases ho

/-- While codec data is due the next input pushed is codec data. -/
theorem due_step (h : Due stage) (hstep : stage.step o = some next) :
    pushedKind o = some .codecData ∨ pushedKind o = none ∧ Due next := by
  cases o with
  | started =>
    cases hstep
    exact .inr ⟨rfl, .inr rfl⟩
  | halted =>
    cases hstep
    exact .inr ⟨rfl, .inl rfl⟩
  | refused =>
    cases hstep
    exact .inr ⟨rfl, due_reopen stage⟩
  | popped slot input state =>
    cases hstep
    refine .inr ⟨rfl, ?_⟩
    split
    · exact due_reopen stage
    · exact h
  | pushed slot input =>
    simp only [Stage.step] at hstep
    split at hstep
    · cases hstep
    · rename_i hrunning
      obtain rfl := h.resolve_left hrunning
      split at hstep
      · rename_i hpushes
        have hkind : input.kind = .codecData := by
          cases hk : input.kind <;> rw [hk] at hstep <;> first | rfl | cases hstep
        exact .inl (by simp [pushedKind, hpushes, hkind])
      · rename_i hpushes
        cases hstep
        exact .inr ⟨by simp [pushedKind, hpushes], .inr rfl⟩
  | _ =>
    cases hstep
    exact .inr ⟨rfl, h⟩

theorem due_stages (h : Due stage) (hlog : stages stage log = some next) :
    ∀ kind ∈ (pushedKinds log).head?, kind = .codecData := by
  induction log generalizing stage with
  | nil => exact fun _ hmem => by cases hmem
  | cons o log ih =>
    obtain ⟨middle, hstep, hrest⟩ := stages_cons hlog
    unfold pushedKinds
    rw [List.filterMap_cons]
    rcases due_step h hstep with hkind | ⟨hkind, hdue⟩
    · rw [hkind]
      intro kind hmem
      exact (Option.some.inj hmem).symm
    · rw [hkind]
      exact ih hdue hrest

/-- Behind a failure the next input that is pushed is codec data. -/
theorem codecData_behind_upset (h : stageOf (before ++ o :: since) = some stage) (ho : Upset o) :
    ∀ kind ∈ (pushedKinds since).head?, kind = .codecData := by
  obtain ⟨middle, -, hrest⟩ := stages_split h
  obtain ⟨behind, hstep, hrest⟩ := stages_cons hrest
  exact due_stages (upset_due ho hstep) hrest

theorem halted_step (hstep : Stage.halted.step o = some next) (ho : o ≠ .started) :
    next = .halted ∧ ∀ slot input, o ≠ .pushed slot input := by
  cases o with
  | started => exact absurd rfl ho
  | pushed slot input => cases hstep
  | popped slot input state =>
    cases hstep
    refine ⟨?_, fun _ _ h => by cases h⟩
    split <;> rfl
  | _ =>
    cases hstep
    exact ⟨rfl, fun _ _ h => by cases h⟩

theorem halted_stages (h : stages .halted log = some next) (hlog : .started ∉ log) :
    ∀ slot input, .pushed slot input ∉ log := by
  induction log with
  | nil => exact fun _ _ hmem => by cases hmem
  | cons o log ih =>
    obtain ⟨middle, hstep, hrest⟩ := stages_cons h
    simp only [List.mem_cons, not_or] at hlog
    obtain ⟨rfl, hpushed⟩ := halted_step hstep (Ne.symm hlog.1)
    intro slot input hmem
    rcases List.mem_cons.mp hmem with hmem | hmem
    · exact hpushed slot input hmem.symm
    · exact ih hrest hlog.2 slot input hmem

/-- Nothing is pushed between a call that halts the codec and its next start. -/
theorem nothing_behind_halt (h : stageOf (before ++ .halted :: since) = some stage)
    (hsince : .started ∉ since) : ∀ slot input, .pushed slot input ∉ since := by
  obtain ⟨middle, -, hrest⟩ := stages_split h
  obtain ⟨behind, hstep, hrest⟩ := stages_cons hrest
  cases hstep
  exact halted_stages hrest hsince

end HarmonyScreen.Proofs.DecoderTrace
