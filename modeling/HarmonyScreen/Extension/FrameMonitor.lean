import Mathlib.Algebra.Order.Ring.Unbundled.Rat
import Mathlib.Data.Rat.Defs

namespace HarmonyScreen.Extension

inductive Transition where
  | stalled
  | recovered
  deriving DecidableEq, Repr

/-- The times of the script in exact arithmetic. -/
structure FrameMonitor where
  stallThresholdMs : ℚ := 2000
  startedAt : ℚ := 0
  totalFrames : Nat := 0
  lastFrameAt : Option ℚ := none
  frameTimes : List ℚ := []
  stallEvents : Nat := 0
  stalled : Bool := false
  pendingTransition : Option Transition := none
  deriving DecidableEq, Repr

/-- What `sample` returns. -/
structure Snapshot where
  fps : ℚ
  totalFrames : Nat
  lastFrameAgeMs : Option ℚ
  stallEvents : Nat
  stalled : Bool
  transition : Option Transition
  deriving DecidableEq, Repr

namespace FrameMonitor

def reset (startedAt : ℚ) (m : FrameMonitor) : FrameMonitor :=
  { stallThresholdMs := m.stallThresholdMs, startedAt := startedAt }

def prune (referenceTime : ℚ) (m : FrameMonitor) : FrameMonitor :=
  let cutoff := referenceTime - 1000
  { m with frameTimes := m.frameTimes.dropWhile (· < cutoff) }

def calculateFps (m : FrameMonitor) : ℚ :=
  if m.frameTimes.length < 2 then m.frameTimes.length
  else
    let durationMs := m.frameTimes.getLastD 0 - m.frameTimes.headD 0
    if durationMs ≤ 0 then m.frameTimes.length
    else (m.frameTimes.length - 1) * 1000 / durationMs

def onFrame (frameAt : ℚ) (m : FrameMonitor) : FrameMonitor :=
  let m := prune frameAt { m with
    totalFrames := m.totalFrames + 1
    lastFrameAt := some frameAt
    frameTimes := m.frameTimes ++ [frameAt] }
  if m.stalled then { m with stalled := false, pendingTransition := some .recovered } else m

def lastFrameAgeMs (sampledAt : ℚ) (m : FrameMonitor) : Option ℚ :=
  m.lastFrameAt.map fun lastFrameAt => max 0 (sampledAt - lastFrameAt)

def waitingForFirstFrame (sampledAt : ℚ) (m : FrameMonitor) : Bool :=
  m.lastFrameAt.isNone && m.stallThresholdMs ≤ sampledAt - m.startedAt

def frameExpired (sampledAt : ℚ) (m : FrameMonitor) : Bool :=
  (m.lastFrameAgeMs sampledAt).any (m.stallThresholdMs ≤ ·)

def sample (sampledAt : ℚ) (m : FrameMonitor) : Snapshot × FrameMonitor :=
  let m := prune sampledAt m
  let m :=
    if !m.stalled && (m.waitingForFirstFrame sampledAt || m.frameExpired sampledAt) then
      { m with
        stalled := true, stallEvents := m.stallEvents + 1, pendingTransition := some .stalled }
    else m
  ({ fps := m.calculateFps
     totalFrames := m.totalFrames
     lastFrameAgeMs := m.lastFrameAgeMs sampledAt
     stallEvents := m.stallEvents
     stalled := m.stalled
     transition := m.pendingTransition },
    { m with pendingTransition := none })

/-- A call that the capture makes, and its time. -/
inductive Call where
  | onFrame (frameAt : ℚ)
  | sample (sampledAt : ℚ)

def call : Call → FrameMonitor → List Transition × FrameMonitor
  | .onFrame frameAt, m => ([], m.onFrame frameAt)
  | .sample sampledAt, m =>
    let r := m.sample sampledAt
    (r.1.transition.toList, r.2)

/-- The transitions that a sequence of calls reports, in order. -/
def run : List Call → FrameMonitor → List Transition × FrameMonitor
  | [], m => ([], m)
  | c :: calls, m =>
    let r := m.call c
    let rest := run calls r.2
    (r.1 ++ rest.1, rest.2)

example : let m : FrameMonitor := {}
    (m.run [.onFrame 0, .sample 2100, .onFrame 2200, .sample 2200, .sample 4200]).1 =
      [.stalled, .recovered, .stalled] := by decide +kernel

end FrameMonitor

end HarmonyScreen.Extension
