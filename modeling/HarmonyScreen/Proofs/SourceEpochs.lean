import HarmonyScreen.Extension.SourceEpochAllocator

namespace HarmonyScreen.Proofs.SourceEpochs
open Lib
open Extension
open Extension.DirectProtocol
open Extension.SourceEpochAllocator

/-- The epochs behind `n`, in order. -/
def epochsAfter (n count : Nat) : List Number :=
  (List.range count).map fun (i : Nat) => .integer ((n + 1 + i : Nat) : Int)

/-- The calls that have returned have taken the epochs behind `n` in order, and the last one
is stored. -/
def Allocated (n : Nat) (initial : Stored) (done : List (Except String Number))
    (stored : Stored) : Prop :=
  ∃ count ≤ done.length, done.filterMap Except.toOption = epochsAfter n count ∧
    stored = if count = 0 then initial else some (.integer ((n + count : Nat) : Int))

/-- The storage holds `n`, or nothing, which counts as zero. -/
def Holds (stored : Stored) (n : Nat) : Prop :=
  stored = some (.integer n) ∨ (stored = none ∧ n = 0)

section Allocation
variable {n count : Nat} {initial stored : Stored} {done : List (Except String Number)}

theorem nextSourceEpoch_of_holds (h : Holds stored n) (hn : n < 2 ^ 32 - 1) :
    nextSourceEpoch stored = .integer ((n + 1 : Nat) : Int) := by
  rcases h with rfl | ⟨rfl, rfl⟩
  · have hrange : ¬ ((n : Int) < 0 ∨ (n : Int) ≥ 0xffffffff) := by omega
    rw [nextSourceEpoch, if_neg hrange]
    push_cast
    rfl
  · rfl

theorem Allocated.holds (hinitial : Holds initial n) (hcount : stored =
    if count = 0 then initial else some (.integer ((n + count : Nat) : Int))) :
    Holds stored (n + count) := by
  subst hcount
  split
  · rename_i hzero
    subst hzero
    exact hinitial
  · exact .inl rfl

/-- A rejection changes nothing. -/
theorem Allocated.rejected (h : Allocated n initial done stored) (reason : String) :
    Allocated n initial (done ++ [.error reason]) stored := by
  obtain ⟨count, hcount, hdone, hstored⟩ := h
  refine ⟨count, ?_, ?_, hstored⟩
  · rw [List.length_append]
    omega
  · simp [hdone, Except.toOption]

theorem Allocated.fulfilled (hinitial : Holds initial n) (h : Allocated n initial done stored)
    (hbound : n + done.length < 2 ^ 32 - 1) :
    Allocated n initial (done ++ [.ok (nextSourceEpoch stored)]) (some (nextSourceEpoch stored)) := by
  obtain ⟨count, hcount, hdone, hstored⟩ := h
  have hnext := nextSourceEpoch_of_holds (Allocated.holds hinitial hstored) (by omega)
  refine ⟨count + 1, ?_, ?_, ?_⟩
  · rw [List.length_append, List.length_singleton]
    omega
  · rw [List.filterMap_append, hdone, hnext, epochsAfter, epochsAfter, List.range_succ,
      List.map_append]
    simp [Except.toOption, Nat.add_right_comm]
  · rw [hnext, if_neg (Nat.succ_ne_zero count)]
    rfl

/-- One allocation behind those that have returned. -/
theorem allocateSourceEpoch_ends (hinitial : Holds initial n)
    (hbound : done.length < 2 ^ 32 - 1 - n) (h : Allocated n initial done stored) :
    allocateSourceEpoch.Ends (fun a => Allocated n initial (done ++ [a])) stored := by
  intro e
  cases e with
  | rejected reason => exact fun _ => h.rejected reason
  | done =>
    intro _ e
    cases e with
    | rejected reason => exact fun _ => h.rejected reason
    | done => exact fun _ => h.fulfilled hinitial (by omega)

end Allocation

theorem allocateSourceEpoch_within : allocateSourceEpoch.Within 4 := by
  refine ⟨fun _ => rfl, fun stored e => ⟨fun _ => rfl, fun _ _ => ?_⟩⟩
  cases e with
  | rejected reason => trivial
  | done =>
    refine ⟨fun _ => rfl, fun _ e => ⟨fun _ => rfl, fun _ _ => ?_⟩⟩
    cases e <;> trivial

/-- An allocation is rejected only by the storage's own answer to it. -/
theorem allocateSourceEpoch_fulfils (reason : String) :
    allocateSourceEpoch.Fulfils (· ≠ .rejected reason) (· ≠ .error reason) := by
  intro stored e he _ _ _
  cases e with
  | rejected other =>
    rintro ⟨⟩
    exact he rfl
  | done =>
    intro _ e he _ _ _
    cases e with
    | rejected other =>
      rintro ⟨⟩
      exact he rfl
    | done => exact fun h => nomatch h

section Chain
variable {initial : Stored} {q : Allocator}

/-- The promise that the call with this index stands behind: it is fulfilled as the call before
settles, however that is. -/
def queueAt : Nat → Promise
  | 0 => .resolved
  | index + 1 => .caught (.allocation index)

def serial (q : Allocator) : Serial Stored Answer (Except String Number) :=
  ⟨q.stored, q.allocations.map Allocation.program⟩

/-- Every call stands behind the one before it. -/
structure Chained (q : Allocator) : Prop where
  queue : q.allocationQueue = queueAt q.allocations.length
  behind : ∀ (index : Nat) (a : Allocation), q.allocations[index]? = some a → a.behind = queueAt index

theorem settlement_allocation (q : Allocator) (index : Nat) : q.settlement (.allocation index) =
    (((serial q).calls[index]?).bind Program.result).map fun result => result.map fun _ => () := by
  simp only [Allocator.settlement, serial, List.getElem?_map]
  cases q.allocations[index]? <;> rfl

theorem settled_serial (q : Allocator) (index : Nat) : q.settled index = (serial q).settled index := by
  rw [Allocator.settled, settlement_allocation, Serial.settled, Option.isSome_map]

theorem settlement_queueAt (q : Allocator) (index : Nat) :
    q.settlement (queueAt index) = if (serial q).isNext index then some (.ok ()) else none := by
  cases index with
  | zero => rfl
  | succ index =>
    rw [queueAt, Allocator.settlement, settlement_allocation, Serial.isNext, Serial.settled,
      Nat.add_sub_cancel]
    cases ((serial q).calls[index]?).bind Program.result <;> rfl

theorem Chained.set (h : Chained q) {index : Nat} {a : Allocation}
    (ha : q.allocations[index]? = some a) (stored : Stored)
    (program : Program Stored Answer (Except String Number)) :
    Chained { q with
      stored := stored
      allocations := q.allocations.set index { a with program := program } } := by
  refine ⟨by simpa using h.queue, fun other b hb => ?_⟩
  rw [List.getElem?_set] at hb
  split at hb
  · rename_i heq
    subst heq
    split at hb
    · cases hb
      exact h.behind index a ha
    · cases hb
  · exact h.behind other b hb

/-- The chain is the queue of calls each of which waits for the one before. -/
theorem Chained.turn (h : Chained q) (move : Turn Answer) :
    Chained (q.turn move) ∧ serial (q.turn move) = (serial q).step allocateSourceEpoch move := by
  cases move with
  | call =>
    refine ⟨⟨by simp [Allocator.turn, Allocator.allocate, queueAt], fun index a ha => ?_⟩, ?_⟩
    · simp only [Allocator.turn, Allocator.allocate] at ha
      rw [List.getElem?_append] at ha
      split at ha
      · exact h.behind index a ha
      · rename_i hlast
        obtain ⟨hzero, rfl⟩ : index - q.allocations.length = 0 ∧ ⟨q.allocationQueue, _⟩ = a := by
          simpa [List.getElem?_singleton] using ha
        obtain rfl : index = q.allocations.length := by omega
        exact h.queue
    · simp [Allocator.turn, Allocator.allocate, serial, Serial.step]
  | take index e =>
    simp only [Allocator.turn, Serial.step]
    have hcall : (serial q).calls[index]? = (q.allocations[index]?).map Allocation.program := by
      simp [serial]
    cases ha : q.allocations[index]? with
    | none =>
      rw [ha] at hcall
      simp only [hcall, Option.map_none]
      exact ⟨h, trivial⟩
    | some a =>
      obtain ⟨behind, program⟩ := a
      obtain rfl : behind = queueAt index := h.behind index _ ha
      rw [ha] at hcall
      simp only [hcall, Option.map_some, settlement_queueAt]
      cases hnext : (serial q).isNext index with
      | false => cases program <;> exact ⟨h, by simp⟩
      | true =>
        cases program with
        | ret result => exact ⟨h, rfl⟩
        | atomic ready act next =>
          cases hready : ready q.stored with
          | false =>
            have hready' : ready (serial q).shared = false := hready
            simp only [hready, hready', Bool.and_false, Bool.false_eq_true, if_false, if_true]
            exact ⟨h, trivial⟩
          | true =>
            have hready' : ready (serial q).shared = true := hready
            simp only [hready, hready', Bool.and_true, if_true]
            refine ⟨h.set ha _ _, ?_⟩
            simp [serial, List.map_set]

theorem run_chained (initial : Stored) (turns : List (Turn Answer)) :
    Chained (Allocator.run initial turns) ∧
      serial (Allocator.run initial turns) = Serial.run allocateSourceEpoch ⟨initial, []⟩ turns := by
  induction turns using List.reverseRecOn with
  | nil => exact ⟨⟨rfl, fun _ _ h => by cases h⟩, rfl⟩
  | append_singleton turns move ih =>
    have hturn := ih.1.turn move
    simp only [Allocator.run, Serial.run, List.foldl_append, List.foldl_cons, List.foldl_nil] at ih hturn ⊢
    rwa [← ih.2]

end Chain

section Run
variable {n : Nat} {initial : Stored}

/-- In every run the calls return in order, each success one epoch behind the last. -/
theorem allocator_inOrder (hinitial : Holds initial n) (turns : List (Turn Answer))
    (hbound : (Allocator.run initial turns).allocations.length < 2 ^ 32 - 1 - n) :
    Serial.InOrder allocateSourceEpoch (Allocated n initial) (serial (Allocator.run initial turns)) := by
  have hcalls : (serial (Allocator.run initial turns)).calls.length =
      (Allocator.run initial turns).allocations.length := List.length_map ..
  rw [← hcalls] at hbound
  rw [(run_chained initial turns).2] at hbound ⊢
  have hstart : Serial.InOrder allocateSourceEpoch (Allocated n initial) ⟨initial, []⟩ :=
    .idle [] rfl ⟨0, Nat.le_refl 0, rfl, rfl⟩
  refine hstart.run (fun done stored (hlength : done.length < 2 ^ 32 - 1 - n) h => ?_) turns
    (Nat.le_of_lt hbound)
  exact allocateSourceEpoch_ends hinitial hlength h

theorem epochsAfter_sorted (n count : Nat) :
    ((epochsAfter n count).map Number.toInt).Pairwise (· < ·) := by
  have hints : (epochsAfter n count).map Number.toInt =
      (List.range count).map fun (i : Nat) => ((n + 1 + i : Nat) : Int) := by
    simp [epochsAfter, Number.toInt]
  rw [hints, List.pairwise_map]
  exact List.pairwise_lt_range.imp fun h => by omega

theorem epochsAfter_gt {v : Number} {count : Nat} (h : v ∈ epochsAfter n count) :
    (n : Int) < v.toInt := by
  obtain ⟨i, -, rfl⟩ := List.mem_map.mp h
  simp only [Number.toInt]
  omega

theorem epochsAfter_getLast (n count : Nat) : (epochsAfter n count).getLast? =
    if count = 0 then none else some (.integer ((n + count : Nat) : Int)) := by
  cases count with
  | zero => rfl
  | succ count =>
    rw [epochsAfter, List.range_succ, List.map_append, if_neg (Nat.succ_ne_zero count)]
    simp [Nat.add_assoc, Int.add_comm 1]

theorem outcomes_serial (q : Allocator) : (serial q).outcomes.filterMap Except.toOption = q.fulfilled := by
  rw [Serial.outcomes, serial, List.filterMap_map]
  rfl

theorem fulfilled_of_allocated {q : Allocator} {stored : Stored}
    (h : Allocated n initial (serial q).outcomes stored) : ∃ count,
      q.fulfilled = epochsAfter n count ∧ stored = q.fulfilled.getLast?.or initial := by
  obtain ⟨count, -, hdone, hstored⟩ := h
  rw [outcomes_serial] at hdone
  refine ⟨count, hdone, ?_⟩
  rw [hdone, epochsAfter_getLast, hstored]
  split <;> rfl

/-- A rejection comes from one of the call's own requests. -/
theorem rejected_by_storage (turns : List (Turn Answer)) {index : Nat} {a : Allocation}
    {reason : String} (ha : (Allocator.run initial turns).allocations[index]? = some a)
    (hresult : a.program = .ret (.error reason)) : .take index (.rejected reason) ∈ turns := by
  by_contra hnone
  have hcall : (serial (Allocator.run initial turns)).calls[index]? =
      some (.ret (.error reason)) := by
    simp [serial, ha, hresult]
  rw [(run_chained initial turns).2] at hcall
  have hfulfils := Serial.fulfils_run (allocateSourceEpoch_fulfils reason) initial turns hcall
    (by
      rintro e he rfl
      exact hnone he)
  exact hfulfils rfl

theorem settles_next (turns : List (Turn Answer)) {index : Nat}
    (hindex : index < (Allocator.run initial turns).allocations.length)
    (hbefore : index = 0 ∨ (Allocator.run initial turns).settled (index - 1) = true)
    (answers : List Answer) (hlength : 4 ≤ answers.length) :
    (Allocator.run initial (turns ++ answers.map (.take index))).settled index = true := by
  have hserial := (run_chained initial turns).2
  have hnext : (serial (Allocator.run initial turns)).isNext index = true := by
    rcases hbefore with rfl | hbefore
    · rfl
    · rw [settled_serial] at hbefore
      simp [Serial.isNext, hbefore]
  obtain ⟨program, hcall⟩ : ∃ program,
      (serial (Allocator.run initial turns)).calls[index]? = some program :=
    ⟨_, List.getElem?_eq_getElem (by simpa [serial] using hindex)⟩
  rw [settled_serial, (run_chained initial _).2, Serial.run, List.foldl_append]
  rw [hserial] at hcall hnext
  exact Serial.settles hcall (Serial.within_run allocateSourceEpoch_within initial turns hcall)
    hnext answers hlength

/-- Allocations are unique, in order and independent of each other's failures: the epochs handed
out increase from call to call above the initial value, the storage ends with the last of them,
a call is rejected only when the storage rejects one of its own two requests, and a call behind
one that has returned or was rejected settles within its four sections. -/
theorem allocator_serial (hinitial : Holds initial n) (turns : List (Turn Answer))
    (hbound : (Allocator.run initial turns).allocations.length < 2 ^ 32 - 1 - n) :
    ((Allocator.run initial turns).fulfilled.map Number.toInt).Pairwise (· < ·) ∧
      (∀ v ∈ (Allocator.run initial turns).fulfilled, (n : Int) < v.toInt) ∧
      ((∀ index < (Allocator.run initial turns).allocations.length,
          (Allocator.run initial turns).settled index = true) →
        (Allocator.run initial turns).stored =
          (Allocator.run initial turns).fulfilled.getLast?.or initial) ∧
      (∀ index a reason, (Allocator.run initial turns).allocations[index]? = some a →
        a.program = .ret (.error reason) → .take index (.rejected reason) ∈ turns) ∧
      ∀ index < (Allocator.run initial turns).allocations.length,
        index = 0 ∨ (Allocator.run initial turns).settled (index - 1) = true →
        ∀ answers : List Answer, 4 ≤ answers.length →
          (Allocator.run initial (turns ++ answers.map (.take index))).settled index = true := by
  have horder := allocator_inOrder hinitial turns hbound
  obtain ⟨stored, hallocated⟩ := horder.outcomes rfl
  obtain ⟨count, hfulfilled, -⟩ := fulfilled_of_allocated hallocated
  refine ⟨?_, ?_, ?_, ?_, ?_⟩
  · rw [hfulfilled]
    exact epochsAfter_sorted n count
  · intro v hv
    rw [hfulfilled] at hv
    exact epochsAfter_gt hv
  · intro hall
    have hsettled : ∀ index < (serial (Allocator.run initial turns)).calls.length,
        (serial (Allocator.run initial turns)).settled index = true := fun index hindex => by
      rw [← settled_serial]
      exact hall index (by simpa [serial] using hindex)
    obtain ⟨_, -, hshared⟩ := fulfilled_of_allocated (horder.all_settled hsettled)
    exact hshared
  · intro index a reason ha hresult
    exact rejected_by_storage turns ha hresult
  · intro index hindex hbefore answers hlength
    exact settles_next turns hindex hbefore answers hlength

/-- Two concurrent calls, the first of which the storage rejects. -/
theorem allocator_serial_rejected :
    (Allocator.run none [.call, .call, .take 0 (.rejected "interruption"), .take 0 .done,
        .take 1 .done, .take 1 .done, .take 1 .done, .take 1 .done]).fulfilled = [.integer 1] ∧
      ((Allocator.run none [.call, .call, .take 0 (.rejected "interruption"), .take 0 .done,
        .take 1 .done, .take 1 .done, .take 1 .done, .take 1 .done]).fulfilled.map
          Number.toInt).Pairwise (· < ·) :=
  ⟨by decide, (allocator_serial (n := 0) (.inr ⟨rfl, rfl⟩) _ (by decide)).1⟩

end Run

end HarmonyScreen.Proofs.SourceEpochs
