import HarmonyScreen.Extension.DirectProtocol
import HarmonyScreen.Proofs.DecoderRuns

namespace HarmonyScreen.Proofs.InputGrammar
open Lib Receiver DecoderTrace DecoderRuns Extension

variable {c : Config DecoderThread ReceiverSession External}

/-- What is pushed since a start are groups of the grammar; behind a failed push, an input
larger than its slot or a refused admission the next is codec data; and nothing is pushed
between a call of `Flush`, `Stop` or `Destroy` and the next start. -/
theorem input_grammar (h : DecoderSystem.Reachable c) :
    (∀ before since, c.state.log = before ++ .started :: since → .started ∉ since →
      Grouped (pushedKinds since)) ∧
    (∀ before o since, c.state.log = before ++ o :: since → Upset o →
      ∀ kind ∈ (pushedKinds since).head?, kind = .codecData) ∧
    (∀ before since, c.state.log = before ++ .halted :: since → .started ∉ since →
      ∀ slot input, .pushed slot input ∉ since) := by
  obtain ⟨stage, hstage, -⟩ := (reachable_kept h).1.sane.traced
  refine ⟨fun before since hlog hsince => ?_, fun before o since hlog ho => ?_,
    fun before since hlog hsince => ?_⟩
  · rw [hlog] at hstage
    exact grouped_since_start hstage hsince
  · rw [hlog] at hstage
    exact codecData_behind_upset hstage ho
  · rw [hlog] at hstage
    exact nothing_behind_halt hstage hsince

/-- An access unit with SPS, PPS and IDR, and one without. -/
def keyframeMessage : Bytes :=
  DirectProtocol.videoHeader 1 1 1 15 0 ++
    [0, 0, 1, 0x67, 1, 0, 0, 1, 0x68, 1, 0, 0, 1, 0x65, 1]

def frameMessage : Bytes := DirectProtocol.videoHeader 0 1 2 5 0 ++ [0, 0, 1, 0x41, 1]

/-- A job that is run to its end while every call of the codec succeeds. -/
def runJob (thread : DecoderThread) (job : DecoderJob) :
    List (Move DecoderThread External DecoderJob) :=
  .start thread job :: List.replicate 40 (.step thread { codecAddress := some 7 })

/-- A decoder is created, offers three slots, and is fed a keyframe and a frame. -/
def feeding : List (Move DecoderThread External DecoderJob) :=
  runJob .surface (.lifecycle (.surfaceCreated 1 2)) ++
    runJob .network (.reconfigure ⟨1280, 720, 30⟩) ++ runJob .network (.activate 1) ++
    runJob (.codec 0) (.needInput 7 ⟨0, 100, true, true⟩) ++
    runJob (.codec 1) (.needInput 7 ⟨1, 100, true, true⟩) ++
    runJob (.codec 0) (.needInput 7 ⟨2, 100, true, true⟩) ++
    runJob .network (.video keyframeMessage) ++ runJob .network (.video frameMessage)

theorem keyframe_pushed : ∃ c, DecoderSystem.Reachable c ∧
    pushedKinds c.state.log = [.codecData, .syncFrame, .frame] ∧
    ∀ before since, c.state.log = before ++ .started :: since → .started ∉ since →
      Grouped (pushedKinds since) := by
  have hrun : (Config.follow DecoderSystem.spawn (fun _ _ _ => True) (fun _ _ _ => True) feeding
      (Config.idle {})).any
      (fun c => pushedKinds c.state.log = [.codecData, .syncFrame, .frame]) = true := by
    decide +kernel
  obtain ⟨c, hc, hpushed⟩ := (Option.any_eq_true _ _).mp hrun
  have hreach : DecoderSystem.Reachable c :=
    (Config.ReachesOffered.follow .refl _ hc).reaches
  exact ⟨c, hreach, of_decide_eq_true hpushed, (input_grammar hreach).1⟩

end HarmonyScreen.Proofs.InputGrammar
