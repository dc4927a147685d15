import Mathlib.Algebra.Order.Ring.Unbundled.Rat
import HarmonyScreen.Extension.DirectClient

namespace HarmonyScreen.Extension.DirectClient
open Receiver

def directRecoveryMaxRetryDelayMs : ℚ := 2000

/-- `none` stands for what `Number.isFinite` refuses. -/
def normalizeRetryDelays (retryDelaysMs : List (Option ℚ)) : List ℚ :=
  let values := if retryDelaysMs = [] then [some 0] else retryDelaysMs
  values.map fun value => min (max 0 (value.getD 0)) directRecoveryMaxRetryDelayMs

/-- What one turn of the loop of `recover` meets. -/
structure Round where
  /-- `shouldContinue() && !signal?.aborted` at its beginning -/
  wanted : Bool := true
  /-- The same behind the delay. -/
  delayed : Bool := true
  /-- The same behind a failure. -/
  continues : Bool := true
  nonce : Bytes
  events : List ConnectEvent
  attemptAt : Int := 0
  endedAt : Int := 0

inductive Report where
  | attempt (attempts : Nat) (elapsedMs : Int) (retryDelayMs : ℚ)
  | transientFailure (attempts : Nat) (elapsedMs : Int) (retryDelayMs : ℚ)
  deriving DecidableEq

inductive Recovered where
  | resolved (response : Value) (attempts : Nat) (elapsedMs : Int)
  | rejected (failure : Failure)

/-- The loop of `recover` behind `attempts` turns: what it has reported, and what it has come
to if it has ended. Each attempt leaves `this.socket` null when it fails. -/
def recoverLoop (p : Platform) (c : DirectReceiverConnection) (delays : List ℚ) (startedAt : Int) :
    Nat → List Round → List Report × Option Recovered
  | _, [] => ([], none)
  | attempts, round :: rounds =>
    if !round.wanted then ([], some (.rejected .cancelled))
    else
      let retryDelayMs := delays.getD (min attempts (delays.length - 1)) 0
      if !round.delayed then ([], some (.rejected .cancelled))
      else
        let attempts := attempts + 1
        let attempt := Report.attempt attempts (max 0 (round.attemptAt - startedAt)) retryDelayMs
        let elapsedMs := max 0 (round.endedAt - startedAt)
        match (Connect.run p c round.nonce round.events).result with
        | none => ([attempt], none)
        | some (.resolved response) => ([attempt], some (.resolved response attempts elapsedMs))
        | some (.rejected failure) =>
          if failure = .cancelled ∨ !round.continues then ([attempt], some (.rejected .cancelled))
          else if failure.recoverable = some false then ([attempt], some (.rejected failure))
          else
            let rest := recoverLoop p c delays startedAt attempts rounds
            (attempt :: .transientFailure attempts elapsedMs retryDelayMs :: rest.1, rest.2)

def recover (p : Platform) (c : DirectReceiverConnection) (retryDelaysMs : List (Option ℚ))
    (startedAt : Int) (rounds : List Round) : List Report × Option Recovered :=
  recoverLoop p c (normalizeRetryDelays retryDelaysMs) startedAt 0 rounds

end HarmonyScreen.Extension.DirectClient
