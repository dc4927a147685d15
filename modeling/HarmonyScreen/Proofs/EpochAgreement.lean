import HarmonyScreen.Proofs.OneTime
import HarmonyScreen.Proofs.SourceHandshake

namespace HarmonyScreen.Proofs.EpochAgreement
open Lib Program Receiver ReceiverSession Protocol SourceContract SourceHandshake

/-- Later announcements are of later sources: no epoch decreases, and an epoch
keeps its contract. -/
def Monotone (s : ReceiverSession) : Prop := (readys s.log).Pairwise Precedes

/-- Where `ready` was just sent, the decoder's contract is the announced one. -/
def DecoderAgrees (s : ReceiverSession) : Prop :=
  ∀ earlier epoch contract whole, s.log = earlier ++ [.reply (.ready epoch contract) whole] →
    s.decoderMediaContract = contract

/-- A message for which `FlushDecoder` or `ReconfigureDecoder` failed is answered by no
announcement; once it is answered, all four variables are what they were when it was taken up. -/
def FailureRestores (s : ReceiverSession) : Prop :=
  ∀ before m source between, s.log = before ++ .message m source :: between →
    (∀ o ∈ between, isMessage o = false) → .prepared false ∈ between →
      readys between = [] ∧
        ((∃ r whole, .reply r whole ∈ between ∧ Network.ofSession r = false) → s.source = source)

/-- Whenever a message is taken up, all four variables are those announced last. -/
def SettledAtMessages (s : ReceiverSession) : Prop :=
  ∀ earlier m source later, s.log = earlier ++ .message m source :: later →
    source = agreed (lastSource earlier)

/-- Nothing of an earlier epoch is pushed once a later one was announced. -/
def NoLateInput (s : ReceiverSession) : Prop :=
  ∀ earlier slot input later, s.log = earlier ++ .pushed slot input :: later →
    ∀ a ∈ readys earlier, a.1 ≤ input.epoch

theorem source_agreement (c : Config Thread ReceiverSession External) (hc : Reachable c) :
    Monotone c.state ∧ DecoderAgrees c.state ∧ FailureRestores c.state ∧
      SettledAtMessages c.state ∧ NoLateInput c.state := by
  obtain ⟨⟨hhistory, _, hordered⟩, hannounced, hfailed⟩ := reachable_agreement hc
  exact ⟨hordered, hannounced, hfailed, fun earlier m source later heq => hhistory _ _ _ heq,
    fun earlier slot input later heq => hhistory _ _ _ heq⟩

/-- The text of `auth_challenge` and `auth` up to the credential, from the computer
that `OneTime.pairBy` pairs. -/
def sourceText (type : String) (epoch : Nat) : Bytes :=
  ascii "\x7b\"type\":\"" ++ ascii type ++
    ascii "\",\"protocol\":6,\"mode\":\"auth\",\"senderId\":\"" ++ List.replicate 16 0x63 ++
    ascii "\",\"deviceId\":\"" ++ (List.replicate 16 (ascii "07")).flatten ++
    ascii "\",\"sourceEpoch\":" ++ decimal epoch ++ ascii ",\"nonce\":\"" ++
    List.replicate 64 0x34 ++
    ascii "\",\"codec\":\"video/avc\",\"avcFormat\":\"annexb\",\"width\":2,\"height\":2,\"maxFps\":30"

def authChallengeText (epoch : Nat) : Bytes := sourceText "auth_challenge" epoch ++ ascii "\x7d"

def authText (epoch : Nat) : Bytes :=
  sourceText "auth" epoch ++ ascii ",\"credential\":\"" ++
    (List.replicate 32 (ascii "07")).flatten ++ ascii "\"\x7d"

/-- A computer connects and sends these texts; the Wi-Fi address changes behind
that many sections. -/
def sends (texts : List Bytes) (sections : Nat) : Thread × Job × List External :=
  (.network,
    .network [some ⟨true, texts.map fun text => .received (WebSocketStream.clientFrame text), []⟩, none],
    List.replicate sections OneTime.lively ++
      List.replicate 8 { OneTime.lively with addressCurrent := false })

/-- A computer streams with epoch 5, is paired anew, and counts its epochs from 1. -/
def restartedCounter : List (Thread × Job × List External) :=
  [OneTime.startReceiving, OneTime.scan OneTime.firstSession, OneTime.pairBy OneTime.firstSession,
    OneTime.startReceiving, sends [authChallengeText 5, authText 5] 33,
    OneTime.startReceiving, OneTime.scan OneTime.otherSession, OneTime.pairBy OneTime.otherSession,
    OneTime.startReceiving, sends [authChallengeText 1] 14]

/-- The end of a log at which a fresh pairing is followed by an answered challenge. -/
def challengeBehindPairing : List Observation → Option (Bytes × AuthChallengeState × Reply)
  | .reply r _ :: .message m _ :: .reply (.paired _ _) _ :: .answered _ :: .paired _ _ ::
      .presented a :: _ => (authChallengeOf m).map fun challenge => (a.challenge.senderId, challenge, r)
  | _ => none

theorem restartedCounter_reached : ∃ s, Config.perform spawn launched restartedCounter {} = some s ∧
    readys s.log = [(5, ⟨2, 2, 30⟩)] ∧ ∃ challenge,
      challengeBehindPairing s.log.reverse =
        some (List.replicate 16 0x63, challenge, .error .epochStale) ∧
      challenge.senderId = List.replicate 16 0x63 := by
  have hrun : (Config.perform spawn launched restartedCounter {}).map
      (fun s => (readys s.log, (challengeBehindPairing s.log.reverse).map
        fun scene => (scene.1, scene.2.1.senderId, scene.2.2))) =
      some ([(5, ⟨2, 2, 30⟩)],
        some (List.replicate 16 0x63, List.replicate 16 0x63, .error .epochStale)) := by
    decide +kernel
  obtain ⟨s, hs, hfacts⟩ := Option.map_eq_some_iff.mp hrun
  obtain ⟨hreadys, hscene⟩ := Prod.mk.inj hfacts
  obtain ⟨⟨sender, challenge, r⟩, hscene, heq⟩ := Option.map_eq_some_iff.mp hscene
  simp only [Prod.mk.injEq] at heq
  obtain ⟨rfl, hsender, rfl⟩ := heq
  exact ⟨s, hs, hreadys, challenge, hscene, hsender⟩

/-- A computer streams with epoch 5 and connects again with epoch 6; by then there is a surface,
but no codec can be created for it. -/
def unprepared : List (Thread × Job × List External) :=
  [OneTime.startReceiving, OneTime.scan OneTime.firstSession, OneTime.pairBy OneTime.firstSession,
    OneTime.startReceiving, sends [authChallengeText 5, authText 5] 33,
    (.surface, .lifecycle (.surfaceCreated 1 2), List.replicate 30 {}),
    OneTime.startReceiving, sends [authChallengeText 6, authText 6] 35]

theorem unprepared_facts : (Config.perform spawn launched unprepared {}).map
    (fun s => (readys s.log, s.log.elem (.prepared false), s.source)) =
    some ([(5, ⟨2, 2, 30⟩)], true, agreed (5, ⟨2, 2, 30⟩)) := by
  decide +kernel

theorem unprepared_agrees : ∃ c : Config Thread ReceiverSession External,
    readys c.state.log = [(5, ⟨2, 2, 30⟩)] ∧ .prepared false ∈ c.state.log ∧
      c.state.source = agreed (5, ⟨2, 2, 30⟩) ∧ Monotone c.state ∧ FailureRestores c.state ∧
      SettledAtMessages c.state := by
  obtain ⟨s, hs, hfacts⟩ := Option.map_eq_some_iff.mp unprepared_facts
  obtain ⟨hreadys, hfacts⟩ := Prod.mk.inj hfacts
  obtain ⟨hprepared, hsource⟩ := Prod.mk.inj hfacts
  obtain ⟨hmonotone, _, hrestores, hsettled, _⟩ := source_agreement (Config.idle s)
    (Config.Reaches.refl.perform unprepared hs)
  exact ⟨Config.idle s, hreadys, List.elem_iff.mp hprepared, hsource, hmonotone, hrestores, hsettled⟩

end HarmonyScreen.Proofs.EpochAgreement
