import Mathlib.Data.List.Induction
import HarmonyScreen.Extension.DirectRecovery

namespace HarmonyScreen.Proofs.Persistence
open Receiver Extension Extension.DirectProtocol Extension.DirectClient

section Attempts
variable {p : Platform} {c : DirectReceiverConnection} {nonce : Bytes} {k : Connect}
  {events : List ConnectEvent}

/-- The event that ended an attempt. -/
def EndsWith (p : Platform) (c : DirectReceiverConnection) (nonce : Bytes)
    (events : List ConnectEvent) (event : Event) : Prop :=
  ∃ before after, events = before ++ .exchange event :: after ∧
    (Connect.run p c nonce before).result = none ∧
    (Connect.run p c nonce (before ++ [.exchange event])).result ≠ none

/-- What an attempt can come to when this event ends it. -/
def Decides : Event → Outcome → Prop
  | .error, outcome | .closed, outcome => ∃ code, outcome = .rejected (.connection code)
  | .opened _, outcome => outcome = .rejected .script
  | .aborted, outcome => outcome = .rejected .cancelled
  | .timedOut, outcome => ∃ code, outcome = .rejected (.protocol code)
  | .message _, outcome =>
    (∃ response, outcome = .resolved response) ∨ ∃ code, outcome = .rejected (.protocol code)
  | .verified _ _, outcome =>
    outcome = .rejected .script ∨ ∃ code, outcome = .rejected (.protocol code)

theorem settle_result (k : Connect) :
    ((k.settle c).result = none ↔ k.result = none ∧ k.exchange.outcome = none) ∧
      (k.settle c).exchange.outcome = k.exchange.outcome := by
  unfold Connect.settle
  split
  · rename_i hresult houtcome
    simp [houtcome, Exchange.closeSocket]
  · rename_i hresult houtcome
    split <;> simp [houtcome, Exchange.closeSocket]
  · rename_i hreject hresolve
    refine ⟨⟨fun h => ⟨h, ?_⟩, fun h => h.1⟩, rfl⟩
    cases houtcome : k.exchange.outcome with
    | none => rfl
    | some outcome =>
      cases outcome with
      | resolved response => exact absurd houtcome (hresolve response h)
      | rejected failure => exact absurd houtcome (hreject failure h)

theorem settle_keep {outcome : Outcome} (h : k.result = some outcome) :
    (k.settle c).result = some outcome := by
  unfold Connect.settle
  split
  · simp_all
  · simp_all
  · exact h

theorem step_result_keep {outcome : Outcome} (h : k.result = some outcome) (event : ConnectEvent) :
    (k.step p c nonce event).result = some outcome := by
  cases event with
  | exchange event =>
    simp only [Connect.step]
    split
    · exact h
    · exact settle_keep h
  | heartbeat isOpen now =>
    simp only [Connect.step]
    split <;> exact h
  | close isOpen =>
    simp only [Connect.step]
    split <;> exact h

theorem run_append (before after : List ConnectEvent) : Connect.run p c nonce (before ++ after) =
    after.foldl (Connect.step p c nonce) (Connect.run p c nonce before) := by
  rw [Connect.run, List.foldl_append]
  rfl

theorem run_concat (before : List ConnectEvent) (event : ConnectEvent) :
    Connect.run p c nonce (before ++ [event]) =
      (Connect.run p c nonce before).step p c nonce event := run_append before [event]

theorem run_result_keep {outcome : Outcome} {before : List ConnectEvent}
    (h : (Connect.run p c nonce before).result = some outcome) (after : List ConnectEvent) :
    (Connect.run p c nonce (before ++ after)).result = some outcome := by
  induction after using List.reverseRecOn with
  | nil => simpa using h
  | append_singleton after event ih =>
    rw [← List.append_assoc, run_concat]
    exact step_result_keep ih event

theorem step_exchange (h : k.result = none) (event : Event) : k.step p c nonce (.exchange event) =
    { k with exchange := exchangeStep p (connectOptions p c nonce) k.exchange event }.settle c := by
  simp only [Connect.step, h]

/-- Only an event of the exchange settles the promise. -/
theorem step_settles (h : k.result = none) {event : ConnectEvent}
    (hstep : (k.step p c nonce event).result ≠ none) : ∃ inner, event = .exchange inner := by
  cases event with
  | exchange inner => exact ⟨inner, rfl⟩
  | heartbeat isOpen now =>
    refine absurd ?_ hstep
    simp only [Connect.step]
    split <;> exact h
  | close isOpen =>
    refine absurd ?_ hstep
    simp only [Connect.step]
    split <;> exact h

theorem step_pending (hpending : k.result = none → k.exchange.outcome = none)
    (event : ConnectEvent) (h : (k.step p c nonce event).result = none) :
    (k.step p c nonce event).exchange.outcome = none := by
  have hbefore : k.result = none := by
    cases hresult : k.result with
    | none => rfl
    | some outcome => rw [step_result_keep hresult event] at h; cases h
  cases event with
  | exchange event =>
    rw [step_exchange hbefore] at h ⊢
    rw [(settle_result _).2]
    exact ((settle_result _).1.mp h).2
  | heartbeat isOpen now =>
    simp only [Connect.step]
    split <;> exact hpending hbefore
  | close isOpen =>
    simp only [Connect.step]
    repeat' split
    all_goals exact hpending hbefore

/-- While the promise is pending, so is the exchange. -/
theorem run_pending (events : List ConnectEvent) (h : (Connect.run p c nonce events).result = none) :
    (Connect.run p c nonce events).exchange.outcome = none := by
  induction events using List.reverseRecOn with
  | nil => rfl
  | append_singleton events event ih =>
    rw [run_concat] at h ⊢
    exact step_pending ih event h

theorem ends_of_result {outcome : Outcome} (h : (Connect.run p c nonce events).result = some outcome) :
    ∃ event, EndsWith p c nonce events event := by
  induction events using List.reverseRecOn generalizing outcome with
  | nil => cases h
  | append_singleton events event ih =>
    cases hbefore : (Connect.run p c nonce events).result with
    | some earlier =>
      obtain ⟨inner, before, after, rfl, hnone, hsome⟩ := ih hbefore
      exact ⟨inner, before, after ++ [event], by simp, hnone, hsome⟩
    | none =>
      have hstep : ((Connect.run p c nonce events).step p c nonce event).result ≠ none := by
        rw [← run_concat, h]
        exact Option.some_ne_none _
      obtain ⟨inner, rfl⟩ := step_settles hbefore hstep
      exact ⟨inner, events, [], rfl, hbefore, by rwa [run_concat]⟩

end Attempts

section Decisions
variable {p : Platform} {r : Options} {x : Exchange}

/-- A final message is refused for what the Receiver sent. -/
def Final (r : Options) : Prop :=
  ∀ response proof failure, r.validateFinal response proof = .error failure →
    ∃ code, failure = .protocol code

/-- So is a proof, or the script throws. -/
def Checked (r : Options) : Prop :=
  ∀ available proof failure, r.buildSecretRequest available proof = .error failure →
    failure = .script ∨ ∃ code, failure = .protocol code

theorem reject_outcome (h : x.outcome = none) (failure : Failure) :
    (x.reject failure).outcome = some (.rejected failure) := by
  simp [Exchange.reject, Exchange.finish, Exchange.settled, h]

theorem receiverError_protocol {message : Value} {failure : Failure}
    (h : receiverError message = some failure) : ∃ code, failure = .protocol code := by
  obtain ⟨code, -, rfl⟩ := Option.map_eq_some_iff.mp h
  exact ⟨_, rfl⟩

theorem handleMessage_decides (hr : Final r) (h : x.outcome = none) (data : Data)
    {outcome : Outcome} (houtcome : (handleMessage p r x data).outcome = some outcome) :
    Decides (.message data) outcome := by
  have hprotocol : ∀ code, (x.reject (.protocol code)).outcome = some outcome →
      Decides (.message data) outcome := by
    intro code hreject
    rw [reject_outcome h] at hreject
    exact .inr ⟨code, (Option.some.inj hreject).symm⟩
  have hsilent : x.outcome = some outcome → Decides (.message data) outcome := by
    intro hsome
    rw [h] at hsome
    cases hsome
  unfold handleMessage at houtcome
  split at houtcome
  · exact hprotocol _ houtcome
  · split at houtcome
    · exact hprotocol _ houtcome
    · split at houtcome
      · exact hprotocol _ houtcome
      · split at houtcome
        · exact hprotocol _ houtcome
        · split at houtcome
          · split at houtcome
            · exact hsilent houtcome
            · rename_i failure herror
              obtain ⟨code, rfl⟩ := receiverError_protocol herror
              exact hprotocol _ houtcome
          · split at houtcome
            · exact hprotocol _ houtcome
            · split at houtcome
              · split at houtcome
                · exact hprotocol _ houtcome
                · exact hsilent houtcome
              · split at houtcome
                · exact hprotocol _ houtcome
                · split at houtcome
                  · rename_i failure herror
                    obtain ⟨code, rfl⟩ := hr _ _ _ herror
                    exact hprotocol _ houtcome
                  · simp only [Exchange.finish, Exchange.settled, h] at houtcome
                    exact .inl ⟨_, (Option.some.inj houtcome).symm⟩

theorem handleVerified_decides (hr : Checked r) (h : x.outcome = none) {message : Value}
    {available throws : Bool} {outcome : Outcome}
    (houtcome : (handleVerified r x message available throws).outcome = some outcome) :
    Decides (.verified available throws) outcome := by
  unfold handleVerified at houtcome
  split at houtcome
  · rename_i failure herror
    replace houtcome : (x.reject failure).outcome = some outcome := houtcome
    rw [reject_outcome h, Option.some.injEq] at houtcome
    rcases hr _ _ _ herror with rfl | ⟨code, rfl⟩
    · exact .inl houtcome.symm
    · exact .inr ⟨code, houtcome.symm⟩
  · split at houtcome
    · rw [h] at houtcome
      cases houtcome
    · split at houtcome
      · replace houtcome : (x.reject .script).outcome = some outcome := houtcome
        rw [reject_outcome h, Option.some.injEq] at houtcome
        exact .inl houtcome.symm
      · replace houtcome : x.outcome = some outcome := houtcome
        rw [h] at houtcome
        cases houtcome

theorem handleOpen_decides (h : x.outcome = none) {throws : Bool} {outcome : Outcome}
    (houtcome : (handleOpen r x throws).outcome = some outcome) : outcome = .rejected .script := by
  unfold handleOpen at houtcome
  split at houtcome
  · rw [h] at houtcome
    cases houtcome
  · dsimp only at houtcome
    split at houtcome
    · exact (Option.some.inj ((reject_outcome (by exact h) .script).symm.trans houtcome)).symm
    · replace houtcome : x.outcome = some outcome := houtcome
      rw [h] at houtcome
      cases houtcome

theorem exchangeStep_decides (hfinal : Final r) (hchecked : Checked r) (h : x.outcome = none)
    (event : Event) {outcome : Outcome}
    (houtcome : (exchangeStep p r x event).outcome = some outcome) : Decides event outcome := by
  have hopen : x.settled = false := by simp [Exchange.settled, h]
  have hreject : ∀ failure, (x.reject failure).outcome = some outcome →
      outcome = .rejected failure := by
    intro failure hreject
    rw [reject_outcome h] at hreject
    exact (Option.some.inj hreject).symm
  cases event with
  | verified available throws =>
    simp only [exchangeStep] at houtcome
    split at houtcome
    · rw [h] at houtcome
      cases houtcome
    · exact handleVerified_decides hchecked (by exact h) houtcome
  | opened throws =>
    simp only [exchangeStep, hopen, Bool.false_eq_true, if_false] at houtcome
    exact handleOpen_decides h houtcome
  | message data =>
    simp only [exchangeStep, hopen, Bool.false_eq_true, if_false] at houtcome
    exact handleMessage_decides hfinal (by exact h) data houtcome
  | error =>
    simp only [exchangeStep, hopen, Bool.false_eq_true, if_false] at houtcome
    exact ⟨_, hreject _ houtcome⟩
  | closed =>
    simp only [exchangeStep, hopen, Bool.false_eq_true, if_false] at houtcome
    exact ⟨_, hreject _ houtcome⟩
  | aborted =>
    simp only [exchangeStep, hopen, Bool.false_eq_true, if_false] at houtcome
    exact hreject _ houtcome
  | timedOut =>
    simp only [exchangeStep, hopen, Bool.false_eq_true, if_false] at houtcome
    exact ⟨_, hreject _ houtcome⟩

end Decisions

section Connecting
variable {p : Platform} {c : DirectReceiverConnection} {nonce : Bytes}
  {events : List ConnectEvent} {event : Event}

theorem testedText_failure {proof : Value} {key : String} {test : Bytes → Bool} {failure : Failure}
    (h : testedText proof key test = .error failure) :
    failure = .script ∨ ∃ code, failure = .protocol code := by
  unfold testedText at h
  split at h
  · exact .inl (Except.error.inj h).symm
  · split at h
    · cases h
    · exact .inr ⟨_, (Except.error.inj h).symm⟩

theorem connect_checked (p : Platform) (c : DirectReceiverConnection) (nonce : Bytes) :
    Checked (connectOptions p c nonce) := by
  intro available proof failure h
  simp only [connectOptions, buildAuthRequest, scripted] at h
  split at h
  · exact .inr ⟨_, (Except.error.inj h).symm⟩
  · cases hgiven : testedText proof "proof" (hexTest 64) with
    | error failure' =>
      rw [hgiven] at h
      cases h
      exact testedText_failure hgiven
    | ok given =>
      rw [hgiven] at h
      cases hproof : DirectProtocol.computeAuthProof p c.trustedDevice.credential
          (c.challenge nonce) with
      | error message =>
        rw [hproof] at h
        cases h
        exact .inl rfl
      | ok expected =>
        rw [hproof] at h
        simp only [bind, Except.bind, Except.mapError] at h
        split at h
        · exact .inl (Except.error.inj h).symm
        · split at h
          · exact .inr ⟨_, (Except.error.inj h).symm⟩
          · cases h

theorem connect_final (p : Platform) (c : DirectReceiverConnection) (nonce : Bytes) :
    Final (connectOptions p c nonce) := by
  intro response proof failure h
  simp only [connectOptions] at h
  split at h
  · exact ⟨_, (Except.error.inj h).symm⟩
  · cases h

/-- An answer with another epoch is refused at the end. -/
theorem settle_decides {k : Connect} (hnone : k.result = none) {outcome : Outcome}
    (h : (k.settle c).result = some outcome) : k.exchange.outcome = some outcome ∨
      ∃ response code, k.exchange.outcome = some (.resolved response) ∧
        outcome = .rejected (.protocol code) := by
  unfold Connect.settle at h
  split at h
  · rename_i failure hresult houtcome
    rw [houtcome]
    exact .inl h
  · rename_i response hresult houtcome
    rw [houtcome]
    split at h
    · exact .inr ⟨response, _, rfl, (Option.some.inj h).symm⟩
    · exact .inl h
  · rw [hnone] at h
    cases h

theorem Decides.stale {event : Event} {response : Value} (h : Decides event (.resolved response))
    (code : Bytes) : Decides event (.rejected (.protocol code)) := by
  cases event with
  | message data => exact .inr ⟨code, rfl⟩
  | _ => simp [Decides] at h

/-- The event that ended an attempt tells what it came to. -/
theorem EndsWith.decides (h : EndsWith p c nonce events event) :
    ∃ outcome, (Connect.run p c nonce events).result = some outcome ∧ Decides event outcome := by
  obtain ⟨before, after, rfl, hnone, hsome⟩ := h
  obtain ⟨outcome, houtcome⟩ := Option.ne_none_iff_exists'.mp hsome
  refine ⟨outcome, ?_, ?_⟩
  · have hkeep := run_result_keep houtcome after
    rwa [List.append_assoc] at hkeep
  · rw [run_concat, step_exchange hnone] at houtcome
    have hstep : ∀ {inner}, (exchangeStep p (connectOptions p c nonce)
        (Connect.run p c nonce before).exchange event).outcome = some inner → Decides event inner :=
      exchangeStep_decides (connect_final p c nonce) (connect_checked p c nonce)
        (run_pending before hnone) event
    rcases settle_decides (by exact hnone) houtcome with hinner | ⟨response, code, hinner, rfl⟩
    · exact hstep hinner
    · exact (hstep hinner).stale code

end Connecting

section Rounds
variable {p : Platform} {c : DirectReceiverConnection} {delays : List ℚ} {startedAt : Int}
  {rounds : List Round}

/-- An attempt that was wanted throughout and failed, by a failure that says nothing against
trying again. -/
structure BreaksDown (p : Platform) (c : DirectReceiverConnection) (round : Round) : Prop where
  kept : round.wanted ∧ round.delayed ∧ round.continues
  failed : ∃ failure, (Connect.run p c round.nonce round.events).result = some (.rejected failure) ∧
    failure ≠ .cancelled ∧ failure.recoverable ≠ some false

example : BreaksDown p c
    { nonce := [], events := [.exchange (.opened false), .heartbeat true 0, .exchange .closed] } :=
  ⟨by simp, _, rfl, by simp, by simp [Failure.recoverable]⟩

/-- The delay before the attempt behind so many. -/
def delayBefore (delays : List ℚ) (attempts : Nat) : ℚ :=
  delays.getD (min attempts (delays.length - 1)) 0

/-- What is reported of attempts that fail. -/
def failures (delays : List ℚ) (startedAt : Int) : Nat → List Round → List Report
  | _, [] => []
  | attempts, round :: rounds =>
    .attempt (attempts + 1) (max 0 (round.attemptAt - startedAt)) (delayBefore delays attempts) ::
      .transientFailure (attempts + 1) (max 0 (round.endedAt - startedAt))
        (delayBefore delays attempts) :: failures delays startedAt (attempts + 1) rounds

/-- One that breaks down is reported, and the next follows. -/
theorem recoverLoop_breaks {round : Round} (h : BreaksDown p c round) (attempts : Nat) :
    recoverLoop p c delays startedAt attempts (round :: rounds) =
      (failures delays startedAt attempts [round] ++
          (recoverLoop p c delays startedAt (attempts + 1) rounds).1,
        (recoverLoop p c delays startedAt (attempts + 1) rounds).2) := by
  obtain ⟨⟨hwanted, hdelayed, hcontinues⟩, failure, hresult, hcancelled, hrecoverable⟩ := h
  simp [recoverLoop, hwanted, hdelayed, hcontinues, hresult, hcancelled, hrecoverable, failures,
    delayBefore]

theorem normalizeRetryDelays_bounds (retryDelaysMs : List (Option ℚ)) :
    ∀ value ∈ normalizeRetryDelays retryDelaysMs, 0 ≤ value ∧ value ≤ 2000 := by
  intro value hmem
  obtain ⟨given, -, rfl⟩ := List.mem_map.mp hmem
  exact ⟨le_min (le_max_left 0 _) (by decide), min_le_right _ _⟩

theorem delayBefore_bounds {delays : List ℚ} (h : ∀ value ∈ delays, 0 ≤ value ∧ value ≤ 2000)
    (attempts : Nat) : 0 ≤ delayBefore delays attempts ∧ delayBefore delays attempts ≤ 2000 := by
  rw [delayBefore, List.getD_eq_getElem?_getD]
  cases hget : delays[min attempts (delays.length - 1)]? with
  | none => exact ⟨le_refl _, by decide⟩
  | some value => exact h value (List.mem_of_getElem? hget)

def Report.delay : Report → ℚ
  | .attempt _ _ retryDelayMs | .transientFailure _ _ retryDelayMs => retryDelayMs

theorem failures_delay {report : Report} {attempts : Nat} {before : List Round}
    (h : report ∈ failures delays startedAt attempts before) :
    ∃ number, Report.delay report = delayBefore delays number := by
  induction before generalizing attempts with
  | nil => cases h
  | cons round before ih =>
    rcases List.mem_cons.mp h with rfl | h
    · exact ⟨attempts, rfl⟩
    · rcases List.mem_cons.mp h with rfl | h
      · exact ⟨attempts, rfl⟩
      · exact ih h

/-- It was not wanted any more, or the Receiver refused it, or its timeout ran out. -/
def Ends (p : Platform) (c : DirectReceiverConnection) (round : Round) (failure : Failure) : Prop :=
  (failure = .cancelled ∧ (¬ (round.wanted ∧ round.delayed ∧ round.continues) ∨
      EndsWith p c round.nonce round.events .aborted)) ∨
    (∃ code, failure = .protocol code) ∧ ∃ event, EndsWith p c round.nonce round.events event ∧
      ((∃ data, event = .message data) ∨ (∃ available throws, event = .verified available throws) ∨
        event = .timedOut)

/-- What a failure that is not tried again comes from. -/
theorem ends_of_rejected {round : Round} {failure : Failure}
    (h : (Connect.run p c round.nonce round.events).result = some (.rejected failure))
    (hlast : failure = .cancelled ∨ failure.recoverable = some false) : Ends p c round failure := by
  obtain ⟨event, hends⟩ := ends_of_result h
  obtain ⟨outcome, hresult, hdecides⟩ := hends.decides
  rw [h] at hresult
  cases hresult
  cases event with
  | opened throws =>
    cases hdecides
    rcases hlast with hlast | hlast <;> cases hlast
  | message data =>
    rcases hdecides with ⟨response, hresolved⟩ | ⟨code, hcode⟩
    · cases hresolved
    · cases hcode
      exact .inr ⟨⟨code, rfl⟩, _, hends, .inl ⟨data, rfl⟩⟩
  | error =>
    obtain ⟨code, hcode⟩ := hdecides
    cases hcode
    rcases hlast with hlast | hlast <;> cases hlast
  | closed =>
    obtain ⟨code, hcode⟩ := hdecides
    cases hcode
    rcases hlast with hlast | hlast <;> cases hlast
  | aborted =>
    cases hdecides
    exact .inl ⟨rfl, .inr hends⟩
  | timedOut =>
    obtain ⟨code, hcode⟩ := hdecides
    cases hcode
    exact .inr ⟨⟨code, rfl⟩, _, hends, .inr (.inr rfl)⟩
  | verified available throws =>
    rcases hdecides with hscript | ⟨code, hcode⟩
    · cases hscript
      rcases hlast with hlast | hlast <;> cases hlast
    · cases hcode
      exact .inr ⟨⟨code, rfl⟩, _, hends, .inr (.inl ⟨available, throws, rfl⟩)⟩

/-- What is reported of the attempt behind so many when it begins. -/
def begun (delays : List ℚ) (startedAt : Int) (attempts : Nat) (round : Round) : Report :=
  .attempt (attempts + 1) (max 0 (round.attemptAt - startedAt)) (delayBefore delays attempts)

/-- What comes of a recovery behind the attempts that broke down: it stands before the next one or
in it, it resolves with that one's answer, or that one ends it. -/
inductive Comes (p : Platform) (c : DirectReceiverConnection) (delays : List ℚ) (startedAt : Int)
    (attempts : Nat) : List Round → List Report → Option Recovered → Prop where
  | waits : Comes p c delays startedAt attempts [] [] none
  | tries {round : Round} (kept : round.wanted ∧ round.delayed)
      (pending : (Connect.run p c round.nonce round.events).result = none) :
      Comes p c delays startedAt attempts (round :: after)
        [begun delays startedAt attempts round] none
  | resolves {round : Round} (kept : round.wanted ∧ round.delayed)
      (answered : (Connect.run p c round.nonce round.events).result = some (.resolved response)) :
      Comes p c delays startedAt attempts (round :: after) [begun delays startedAt attempts round]
        (some (.resolved response (attempts + 1) (max 0 (round.endedAt - startedAt))))
  | unwanted {round : Round} (abandoned : ¬ (round.wanted ∧ round.delayed)) :
      Comes p c delays startedAt attempts (round :: after) [] (some (.rejected .cancelled))
  | rejects {round : Round} {failure met : Failure} (kept : round.wanted ∧ round.delayed)
      (failed : (Connect.run p c round.nonce round.events).result = some (.rejected met))
      (ends : Ends p c round failure) :
      Comes p c delays startedAt attempts (round :: after)
        [begun delays startedAt attempts round] (some (.rejected failure))

/-- An attempt that does not break down is the last one. -/
theorem recoverLoop_last {round : Round} (rounds : List Round) (attempts : Nat)
    (h : ¬ BreaksDown p c round) : ∃ reports result,
      recoverLoop p c delays startedAt attempts (round :: rounds) = (reports, result) ∧
        Comes p c delays startedAt attempts (round :: rounds) reports result := by
  rw [recoverLoop]
  split
  · rename_i hwanted
    exact ⟨_, _, rfl, .unwanted fun hkept => by simp [hkept.1] at hwanted⟩
  rename_i hwanted
  dsimp only
  split
  · rename_i hdelayed
    exact ⟨_, _, rfl, .unwanted fun hkept => by simp [hkept.2] at hdelayed⟩
  rename_i hdelayed
  have hkept : round.wanted ∧ round.delayed :=
    ⟨by simpa using hwanted, by simpa using hdelayed⟩
  split
  · rename_i hnone
    exact ⟨_, _, rfl, .tries hkept hnone⟩
  · rename_i response hresolved
    exact ⟨_, _, rfl, .resolves hkept hresolved⟩
  · rename_i failure hrejected
    split
    · rename_i hcancel
      refine ⟨_, _, rfl, .rejects hkept hrejected ?_⟩
      rcases hcancel with rfl | hcontinues
      · exact ends_of_rejected hrejected (.inl rfl)
      · exact .inl ⟨rfl, .inl fun hall => by simp [hall.2.2] at hcontinues⟩
    rename_i hcancel
    split
    · rename_i hlast
      exact ⟨_, _, rfl, .rejects hkept hrejected (ends_of_rejected hrejected (.inr hlast))⟩
    · rename_i hlast
      simp only [not_or, Bool.not_eq_true', Bool.not_eq_false] at hcancel
      exact absurd ⟨⟨hkept.1, hkept.2, hcancel.2⟩, failure, hrejected, hcancel.1, hlast⟩ h

theorem recoverLoop_comes (rounds : List Round) (attempts : Nat) :
    ∃ before after reports result, rounds = before ++ after ∧
      (∀ round ∈ before, BreaksDown p c round) ∧
      recoverLoop p c delays startedAt attempts rounds =
        (failures delays startedAt attempts before ++ reports, result) ∧
      Comes p c delays startedAt (attempts + before.length) after reports result := by
  induction rounds generalizing attempts with
  | nil => exact ⟨[], [], [], none, rfl, by simp, rfl, .waits⟩
  | cons round rounds ih =>
    by_cases hbreaks : BreaksDown p c round
    · obtain ⟨before, after, reports, result, hrounds, hbefore, hloop, hcomes⟩ := ih (attempts + 1)
      refine ⟨round :: before, after, reports, result, by rw [hrounds, List.cons_append], ?_, ?_, ?_⟩
      · exact List.forall_mem_cons.mpr ⟨hbreaks, hbefore⟩
      · rw [recoverLoop_breaks hbreaks, hloop]
        simp [failures]
      · rw [List.length_cons, show attempts + (before.length + 1) = attempts + 1 + before.length by
          omega]
        exact hcomes
    · obtain ⟨reports, result, hloop, hcomes⟩ := recoverLoop_last rounds attempts hbreaks
      exact ⟨[], round :: rounds, reports, result, rfl, by simp, hloop, hcomes⟩

/-- How a run of `recover` went: the attempts that broke down, each reported and followed by the
next, and then what comes of the recovery. No delay is longer than two seconds. -/
structure Persists (p : Platform) (c : DirectReceiverConnection) (retryDelaysMs : List (Option ℚ))
    (startedAt : Int) (rounds : List Round) : Prop where
  tries : ∃ before after reports result, rounds = before ++ after ∧
    (∀ round ∈ before, BreaksDown p c round) ∧
    recover p c retryDelaysMs startedAt rounds =
      (failures (normalizeRetryDelays retryDelaysMs) startedAt 0 before ++ reports, result) ∧
    Comes p c (normalizeRetryDelays retryDelaysMs) startedAt before.length after reports result
  delays : ∀ report ∈ (recover p c retryDelaysMs startedAt rounds).1,
    0 ≤ Report.delay report ∧ Report.delay report ≤ 2000

theorem Comes.delay {attempts : Nat} {reports : List Report} {result : Option Recovered}
    {report : Report} (h : Comes p c delays startedAt attempts rounds reports result)
    (hmem : report ∈ reports) : ∃ number, Report.delay report = delayBefore delays number := by
  cases h with
  | waits | unwanted => cases hmem
  | tries | resolves | rejects =>
    rw [List.mem_singleton.mp hmem]
    exact ⟨attempts, rfl⟩

theorem recover_persists (p : Platform) (c : DirectReceiverConnection)
    (retryDelaysMs : List (Option ℚ)) (startedAt : Int) (rounds : List Round) :
    Persists p c retryDelaysMs startedAt rounds := by
  obtain ⟨before, after, reports, result, hrounds, hbefore, hloop, hcomes⟩ :=
    recoverLoop_comes rounds 0
  rw [Nat.zero_add] at hcomes
  refine ⟨⟨before, after, reports, result, hrounds, hbefore, hloop, hcomes⟩, fun report hreport => ?_⟩
  obtain ⟨number, hdelay⟩ : ∃ number, Report.delay report =
      delayBefore (normalizeRetryDelays retryDelaysMs) number := by
    rw [recover, hloop] at hreport
    rcases List.mem_append.mp hreport with hreport | hreport
    · exact failures_delay hreport
    · exact hcomes.delay hreport
  rw [hdelay]
  exact delayBefore_bounds (normalizeRetryDelays_bounds retryDelaysMs) number

end Rounds

end HarmonyScreen.Proofs.Persistence
