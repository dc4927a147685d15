import HarmonyScreen.Proofs.EpochAgreement

namespace HarmonyScreen.Proofs.FreshPairing
open Lib Program Receiver ReceiverSession Protocol SourceContract SourceHandshake EpochAgreement

/-- The first challenge of a sender behind its pairing is not refused for its epoch. -/
def ServedAfterPairing (log : List Observation) : Prop :=
  ∀ before a grant sessionId since m source between r whole later challenge,
    log = before ++ .presented a :: .paired grant sessionId :: since ++
      .message m source :: between ++ .reply r whole :: later →
    readys since = [] → (∀ o ∈ between, ofHandshake o = false) →
    authChallengeOf m = some challenge → challenge.senderId = a.challenge.senderId →
    r ≠ .error .epochStale ∧ r ≠ .error .epochContractMismatch

theorem restarted_counter_refused : ∃ c : Config Thread ReceiverSession External, Reachable c ∧
    ¬ ServedAfterPairing c.state.log := by
  obtain ⟨s, hs, _, challenge, hscene, hsender⟩ := restartedCounter_reached
  refine ⟨Config.idle s, Config.Reaches.refl.perform restartedCounter hs, fun hserved => ?_⟩
  unfold challengeBehindPairing at hscene
  split at hscene
  · rename_i r whole m source deviceId credential sent grant grant' sessionId a rest hlog
    obtain ⟨other, hm, heq⟩ := Option.map_eq_some_iff.mp hscene
    simp only [Prod.mk.injEq] at heq
    obtain ⟨ha, rfl, rfl⟩ := heq
    have hsplit : s.log = rest.reverse ++ .presented a :: .paired grant' sessionId ::
        [.answered grant, .reply (.paired deviceId credential) sent] ++
        .message m source :: [] ++ .reply (.error .epochStale) whole :: [] := by
      rw [← List.reverse_reverse s.log, hlog]
      simp
    exact (hserved _ a _ _ _ m _ _ _ _ _ other hsplit rfl (by simp) hm (hsender.trans ha.symm)).1 rfl
  · cases hscene

/-- The first challenge behind a pairing, when it is the connection's first
message and the identities match, is refused for its epoch exactly when it is
behind the source announced last before the pairing, and for its contract
exactly when it differs at the same epoch. -/
theorem refused_iff_behind_last_source (c : Config Thread ReceiverSession External)
    (hc : Reachable c) (before since between later : List Observation) (grant : Nat)
    (sessionId : Bytes) (m : WebSocket.Message) (source : SourceState) (r : Reply) (whole : Bool)
    (challenge : AuthChallengeState)
    (hlog : c.state.log = before ++ .paired grant sessionId :: since ++
      .message m source :: between ++ .reply r whole :: later)
    (hsince : readys since = []) (hbetween : ∀ o ∈ between, ofHandshake o = false)
    (hm : authChallengeOf m = some challenge) (hr : Network.ofSession r = false) :
    r = .error .challengeStateInvalid ∨ r = .error .notPaired ∨ r = .error .identityMismatch ∨
      ((r = .error .epochStale ↔ challenge.sourceEpoch < (lastSource before).1) ∧
        (r = .error .epochContractMismatch ↔ challenge.sourceEpoch = (lastSource before).1 ∧
          challenge.mediaContract ≠ (lastSource before).2)) := by
  have hhistory := (reachable_agreement hc).history
  have hlast : lastSource (before ++ .paired grant sessionId :: since) = lastSource before :=
    lastSource_append (by rw [← hsince]; rfl)
  have hsource : Allowed (before ++ .paired grant sessionId :: since) (.message m source) :=
    hhistory _ _ (between ++ .reply r whole :: later) (by rw [hlog]; simp)
  rw [Allowed, hlast] at hsource
  exact hhistory _ _ later hlog hr _ m source between challenge rfl hbetween hm _ hsource

/-- A sender whose counter has started again is refused behind its pairing, for an epoch behind the
source announced before. -/
theorem restarted_counter_behind : ∃ c : Config Thread ReceiverSession External, Reachable c ∧
    ∃ before since grant sessionId m source whole challenge,
      c.state.log = before ++ .paired grant sessionId :: since ++
        [.message m source, .reply (.error .epochStale) whole] ∧
      authChallengeOf m = some challenge ∧ challenge.sourceEpoch < (lastSource before).1 := by
  obtain ⟨s, hs, _, challenge, hscene, _⟩ := restartedCounter_reached
  have hreach : Reachable (Config.idle s) := Config.Reaches.refl.perform restartedCounter hs
  unfold challengeBehindPairing at hscene
  split at hscene
  · rename_i r whole m source deviceId credential sent grant grant' sessionId a rest hlog
    obtain ⟨other, hm, heq⟩ := Option.map_eq_some_iff.mp hscene
    simp only [Prod.mk.injEq] at heq
    obtain ⟨_, rfl, rfl⟩ := heq
    have hsplit : s.log = (rest.reverse ++ [.presented a]) ++ .paired grant' sessionId ::
        [.answered grant, .reply (.paired deviceId credential) sent] ++
        .message m source :: [] ++ .reply (.error .epochStale) whole :: [] := by
      rw [← List.reverse_reverse s.log, hlog]
      simp
    have hanswer := refused_iff_behind_last_source (Config.idle s) hreach _ _ [] [] grant' sessionId m
      source _ whole other hsplit rfl (by simp) hm rfl
    rcases hanswer with h | h | h | h
    · cases h
    · cases h
    · cases h
    · refine ⟨Config.idle s, hreach, rest.reverse ++ [.presented a],
        [.answered grant, .reply (.paired deviceId credential) sent], grant', sessionId, m, source,
        whole, other, ?_, hm, h.1.mp rfl⟩
      exact hsplit.trans (by simp)
  · cases hscene

end HarmonyScreen.Proofs.FreshPairing
